import BoundSql.Proofs.Tokens

/-!
# Quoted names

A name is written between quotes with its own quotes doubled, so they stand in pairs, and the first
quote without a partner is the closing one. Hence a name is read back from what it is written as,
and what follows it is left, unless that begins with another quote. What is written of a table or a
column is therefore written of no other one, whatever stands in its names.
-/
namespace BoundSql

open Text

/-! ## Pairs of quotes -/

namespace Text

/-- Reads each pair of quotes as one; `none` if a quote has no partner. -/
def undoubled? (quote : Char) : List Char → Option (List Char)
  | [] => some []
  | c :: cs =>
    if c = quote then
      match cs with
      | [] => none
      | d :: ds => if d = quote then (undoubled? quote ds).map (quote :: ·) else none
    else (undoubled? quote cs).map (c :: ·)

theorem undoubled?_doubled (quote : Char) (s : List Char) :
    undoubled? quote (doubled quote s) = some s := by
  induction s with
  | nil => rfl
  | cons c s ih =>
    by_cases hc : c = quote
    · rw [doubled, if_pos hc, undoubled?, if_pos rfl]
      simp [ih, hc]
    · rw [doubled, if_neg hc, undoubled?.eq_def]
      simp [ih, hc]

theorem eq_doubled_of_undoubled? {quote : Char} {cs s : List Char}
    (h : undoubled? quote cs = some s) : cs = doubled quote s := by
  induction cs using undoubled?.induct quote generalizing s with
  | case1 =>
    obtain rfl := Option.some.inj h
    rfl
  | case2 => simp [undoubled?] at h
  | case3 ds ih =>
    rw [undoubled?, if_pos rfl] at h
    obtain ⟨t, ht, rfl⟩ := Option.map_eq_some_iff.1 ((if_pos rfl).symm.trans h)
    rw [doubled, if_pos rfl, ← ih ht]
  | case4 d ds hd =>
    rw [undoubled?, if_pos rfl] at h
    cases (if_neg hd).symm.trans h
  | case5 c cs hc ih =>
    rw [undoubled?.eq_def] at h
    obtain ⟨t, ht, rfl⟩ := Option.map_eq_some_iff.1 ((if_neg hc).symm.trans h)
    rw [doubled, if_neg hc, ← ih ht]

/-- Escaped text has its quotes in pairs, and no other text reads as the one that was escaped. -/
theorem undoubled?_eq_some_iff {quote : Char} {text name : String} :
    undoubled? quote text.toList = some name.toList ↔ text = escape quote name := by
  rw [← String.toList_inj, toList_escape]
  constructor
  · exact eq_doubled_of_undoubled?
  · intro h
    rw [h, undoubled?_doubled]

example : undoubled? '\x60' ['\x60', '\x60', '\x60', '.', '\x60'] = none := by decide

/-- Reads a quoted text at the beginning, and what follows it. -/
def readQuoted? (quote : Char) (cs : List Char) : Option (String × List Char) :=
  (expect quote cs).bind fun cs => (unquote? quote cs).map fun (s, rest) => (String.ofList s, rest)

/-- Quoted text is read up to its closing quote exactly if no other quote follows. -/
theorem readQuoted?_quoted_iff (quote : Char) (name : String) (rest : List Char) :
    readQuoted? quote ((quoted quote name).toList ++ rest) = some (name, rest) ↔
      rest.head? ≠ some quote := by
  have hread : readQuoted? quote ((quoted quote name).toList ++ rest) =
      (unquote? quote (doubled quote name.toList ++ quote :: rest)).map fun (s, rest) =>
        (String.ofList s, rest) := by
    simp [readQuoted?, expect]
  rw [hread]
  constructor
  · intro h
    obtain ⟨⟨s, r⟩, hs, heq⟩ := Option.map_eq_some_iff.1 h
    obtain ⟨-, rfl⟩ := Prod.mk.inj heq
    exact (eq_doubled_of_unquote? hs).2
  · intro h
    rw [unquote?_doubled _ _ _ h]
    simp only [Option.map_some, String.ofList_toList]

end Text

/-! ## Tables and columns -/

namespace Target

/-- A table is read as its names, and as the dot and the word between them. -/
theorem tokens_layout (t : Target) :
    t.layout.tokens = (t.schema.elim [] fun s => [.identifier s, .char '.']) ++
      .identifier t.table :: t.tableAlias.elim [] fun a =>
        [.char ' ', .char 'a', .char 's', .char ' ', .identifier a] := by
  obtain ⟨table, schema, tableAlias⟩ := t
  cases schema <;> cases tableAlias <;> rfl

theorem tokens?_nameAliased (t : Target) :
    tokens? (t.nameAliased .mysql).toList = some t.layout.tokens := by
  have htext : (t.nameAliased .mysql).toList = t.layout.chars := by
    rw [Layout.chars, ← nameAliased_eq]
    rfl
  rw [htext]
  exact (t.phrase_layout).tokens?_chars_eq

theorem nameAliased_mysql_inj {t t' : Target} :
    t.nameAliased .mysql = t'.nameAliased .mysql ↔ t = t' := by
  constructor
  · intro h
    have htokens : t.layout.tokens = t'.layout.tokens := by
      have hread := t.tokens?_nameAliased
      rw [h, t'.tokens?_nameAliased] at hread
      exact (Option.some.inj hread).symm
    rw [tokens_layout, tokens_layout] at htokens
    obtain ⟨table, schema, tableAlias⟩ := t
    obtain ⟨table', schema', tableAlias'⟩ := t'
    cases schema <;> cases schema' <;> cases tableAlias <;> cases tableAlias' <;>
      simp_all
  · rintro rfl
    rfl

end Target

/-- The asterisk alone is not read as a name, so it stands for no column called that. -/
theorem Piece.tokens_column_inj {qualifier qualifier' : Option String} {name name' : String}
    (h : (Piece.column qualifier name).tokens = (Piece.column qualifier' name').tokens) :
    qualifier = qualifier' ∧ name = name' := by
  unfold Piece.tokens at h
  by_cases hname : name = "*" <;> by_cases hname' : name' = "*" <;>
    cases qualifier <;> cases qualifier' <;> simp_all

namespace Dialect

theorem tokens?_qualify (qualifier : Option String) (name : String) :
    tokens? (mysql.qualify qualifier name).toList =
      some (Piece.column qualifier name).tokens := by
  have hread := Piece.reads_column qualifier name [] (by simp [Clear])
  simpa [tokens?_nil, Piece.sql] using hread

theorem qualify_mysql_inj {qualifier qualifier' : Option String} {name name' : String} :
    mysql.qualify qualifier name = mysql.qualify qualifier' name' ↔
      qualifier = qualifier' ∧ name = name' := by
  constructor
  · intro h
    have htokens : (Piece.column qualifier name).tokens =
        (Piece.column qualifier' name').tokens := by
      have hread := tokens?_qualify qualifier name
      rw [h, tokens?_qualify] at hread
      exact (Option.some.inj hread).symm
    exact Piece.tokens_column_inj htokens
  · rintro ⟨rfl, rfl⟩
    rfl

/-- Escaped text has its quotes in pairs, each of which stands for one quote. So a quoted name ends
where it was closed unless another quote follows it there, and neither two tables nor two columns
are written alike, though their names may hold quotes, dots and the word between a table and its
alias. -/
theorem mysql_names_unambiguous :
    (∀ (quote : Char) (text name : String),
      undoubled? quote text.toList = some name.toList ↔ text = escape quote name) ∧
    (∀ (name : String) (rest : List Char),
      readQuoted? '\x60' ((mysql.quote name).toList ++ rest) = some (name, rest) ↔
        rest.head? ≠ some '\x60') ∧
    (∀ t t' : Target, t.nameAliased mysql = t'.nameAliased mysql ↔ t = t') ∧
    (∀ (qualifier qualifier' : Option String) (name name' : String),
      mysql.qualify qualifier name = mysql.qualify qualifier' name' ↔
        qualifier = qualifier' ∧ name = name') := by
  refine ⟨fun _ _ _ => undoubled?_eq_some_iff, fun name rest => ?_, fun _ _ => ?_,
    fun _ _ _ _ => qualify_mysql_inj⟩
  · exact readQuoted?_quoted_iff '\x60' name rest
  · exact Target.nameAliased_mysql_inj

end Dialect
end BoundSql
