import BoundSql.Proofs.Tokens

/-!
# Marks

A statement and its bindings together say more than its text: every placeholder stands for a
value. The marks of a statement are its tokens with the values in the place of the placeholders.
Without raw SQL they are the pieces of its layout side by side, so a statement can be read piece
by piece.
-/
namespace BoundSql

open Text

/-- A token, or the value of a placeholder. -/
inductive Mark where
  | char (c : Char)
  | name (name : String)
  | literal (text : String)
  | value (v : Value)

namespace Mark

/-- A mark as it is written; a value is only bound. -/
def chars : Mark → List Char
  | .char c => [c]
  | .name n => (Dialect.mysql.quote n).toList
  | .literal s => (Text.literal s).toList
  | .value _ => Dialect.mysql.placeholder.toList

def bindings : Mark → List Value
  | .value v => [v]
  | _ => []

end Mark

namespace Text

/-- Values in the place of placeholders, up to the first placeholder without a value. -/
def valued : List Token → List Value → List Mark
  | [], _ => []
  | .char c :: ts, vs => .char c :: valued ts vs
  | .identifier n :: ts, vs => .name n :: valued ts vs
  | .literal s :: ts, vs => .literal s :: valued ts vs
  | .placeholder :: ts, v :: vs => .value v :: valued ts vs
  | .placeholder :: _, [] => []

/-- Text without placeholders and names. -/
def marks (s : String) : List Mark := s.toList.map .char

theorem valued_chars (s : List Char) (ts : List Token) (vs : List Value) :
    valued (s.map .char ++ ts) vs = s.map .char ++ valued ts vs := by
  induction s with
  | nil => rfl
  | cons c s ih => rw [List.map_cons, List.cons_append, valued, ih, List.map_cons, List.cons_append]

end Text

namespace Piece

/-- The marks of a piece; raw SQL is left out. -/
def marks : Piece → List Mark
  | .words s => Text.marks s
  | .name n => [.name n]
  | .column qualifier n =>
    (qualifier.elim [] fun q => [.name q, .char '.']) ++
      (if n = "*" then [.char '*'] else [.name n])
  | .literal s => [.literal s]
  | .allRows => Text.marks (Number.natText Dialect.mysql.maxRowCount.toNat)
  | .value v => [.value v.binding]
  | .count rows => [.value (.uint rows)]
  | .raw _ => []

theorem valued_tokens {p : Piece} (h : ∀ r, p ≠ .raw r) (ts : List Token) (vs : List Value) :
    valued (p.tokens ++ ts) ((p.sql .mysql).bindings ++ vs) = p.marks ++ valued ts vs := by
  cases p with
  | words s | allRows => exact valued_chars _ ts vs
  | name n | literal s | value v | count rows => rfl
  | column qualifier n => cases qualifier <;> by_cases hn : n = "*" <;> simp [tokens, marks, hn,
      valued, sql]
  | raw r => exact absurd rfl (h r)

theorem sql_eq {p : Piece} (h : ∀ r, p ≠ .raw r) :
    p.sql .mysql = ⟨String.ofList (p.marks.flatMap Mark.chars), p.marks.flatMap Mark.bindings⟩ := by
  have hwords : ∀ s : String, Fragment.ofText s =
      ⟨String.ofList ((Text.marks s).flatMap Mark.chars),
        (Text.marks s).flatMap Mark.bindings⟩ := by
    intro s
    apply Fragment.ext_chars
    · simp [Text.marks, List.flatMap_map, Mark.chars]
    · simp [Text.marks, List.flatMap_map, Mark.bindings]
  have hqualify : ∀ qualifier n, Dialect.mysql.qualify qualifier n =
      (qualifier.elim "" fun q => Dialect.mysql.quote q ++ ".") ++
        if n = "*" then n else Dialect.mysql.quote n := by
    intro qualifier n
    cases qualifier with
    | none => exact String.empty_append.symm
    | some q => rfl
  cases p with
  | words s | allRows => exact hwords _
  | name n | literal s | value v | count rows =>
    apply Fragment.ext_chars <;> simp [sql, marks, Mark.chars, Mark.bindings, Value.binding]
  | column qualifier n =>
    cases qualifier <;> by_cases hn : n = "*" <;> apply Fragment.ext_chars <;>
      simp [sql, marks, hqualify, hn, Mark.chars, Mark.bindings]
  | raw r => exact absurd rfl (h r)

end Piece

namespace Layout

/-- The marks of all pieces in order. -/
def marks (l : Layout) : List Mark := l.flatMap Piece.marks

@[simp] theorem marks_nil : marks [] = [] := rfl

@[simp] theorem marks_cons (p : Piece) (l : Layout) : marks (p :: l) = p.marks ++ marks l := rfl

@[simp] theorem marks_append (k l : Layout) : marks (k ++ l) = marks k ++ marks l :=
  List.flatMap_append

theorem valued_write {l : Layout} (h : ∀ p ∈ l, ∀ r, p ≠ .raw r) :
    valued l.tokens (write .mysql l).bindings = l.marks := by
  induction l with
  | nil => rfl
  | cons p l ih =>
    have hp := Piece.valued_tokens (h p (List.mem_cons_self ..)) (tokens l)
      (write .mysql l).bindings
    rw [tokens_cons, write_cons, Fragment.bindings_append, hp,
      ih fun q hq => h q (List.mem_cons_of_mem p hq), marks_cons]

/-- The marks can be written in the place of the pieces. -/
theorem write_eq {l : Layout} (h : ∀ p ∈ l, ∀ r, p ≠ .raw r) :
    write .mysql l = ⟨String.ofList (l.marks.flatMap Mark.chars),
      l.marks.flatMap Mark.bindings⟩ := by
  induction l with
  | nil => rfl
  | cons p l ih =>
    have hp := Piece.sql_eq (h p (List.mem_cons_self ..))
    have hl := ih fun q hq => h q (List.mem_cons_of_mem p hq)
    rw [write_cons, hp, hl, marks_cons]
    apply Fragment.ext_chars <;> simp

end Layout

open Layout

/-- Without raw SQL, a statement determines its marks and they determine it. -/
theorem Phrase.marks_eq_iff {k l : Layout} (hk : Phrase (fun _ => False) k)
    (hl : Phrase (fun _ => False) l) :
    k.marks = l.marks ↔ write .mysql k = write .mysql l := by
  have hraw : ∀ {m : Layout}, Phrase (fun _ => False) m → ∀ p ∈ m, ∀ r, p ≠ .raw r :=
    fun hm => hm.forall_mem (by rintro _ hp r rfl; exact hp) (by rintro _ _ _ r ⟨⟩)
  constructor
  · intro h
    rw [write_eq (hraw hk), write_eq (hraw hl), h]
  · intro h
    have htokens : k.tokens = l.tokens := by
      have hchars : k.chars = l.chars := congrArg (fun f => f.text.toList) h
      have hread := hk.tokens?_chars_eq
      rw [hchars, hl.tokens?_chars_eq] at hread
      exact (Option.some.inj hread).symm
    rw [← valued_write (hraw hk), ← valued_write (hraw hl), htokens, h]

end BoundSql
