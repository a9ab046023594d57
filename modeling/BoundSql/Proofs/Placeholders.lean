import BoundSql.Proofs.Layout.SchemaPhrase

/-!
# Placeholders

A question mark outside quotation marks is a placeholder. Filling a fragment puts its bindings in
the place of its placeholders, from left to right. A statement has as many placeholders as
bindings, and filling it gives the statement with every value written where its clause has it.
-/
namespace BoundSql

/-- A character of a text, or a value that stands in the text. -/
inductive Symbol where
  | char (c : Char)
  | value (v : Value)

namespace Text

/-- The quotation mark that is open after a character, given the one before it. -/
def toggled (mark : Option Char) (c : Char) : Option Char :=
  match mark with
  | none => if isMark c then some c else none
  | some m => if c = m then none else some m

/-- The quotation mark that is open at the end. -/
def openMark (mark : Option Char) (cs : List Char) : Option Char := cs.foldl toggled mark

def isPlaceholder (mark : Option Char) (c : Char) : Bool := mark.isNone && c == '?'

/-- The number of placeholders. -/
def placeholders : Option Char → List Char → Nat
  | _, [] => 0
  | mark, c :: cs => (if isPlaceholder mark c then 1 else 0) + placeholders (toggled mark c) cs

/-- Values in the place of placeholders, as long as there are any. -/
def filled : Option Char → List Char → List Value → List Symbol
  | _, [], _ => []
  | mark, c :: cs, vs =>
    match isPlaceholder mark c, vs with
    | true, v :: vs => .value v :: filled (toggled mark c) cs vs
    | _, vs => .char c :: filled (toggled mark c) cs vs

theorem openMark_append (mark : Option Char) (s t : List Char) :
    openMark mark (s ++ t) = openMark (openMark mark s) t := List.foldl_append

theorem placeholders_append (mark : Option Char) (s t : List Char) :
    placeholders mark (s ++ t) = placeholders mark s + placeholders (openMark mark s) t := by
  induction s generalizing mark with
  | nil => simp [placeholders, openMark]
  | cons c s ih =>
    have hopen : openMark mark (c :: s) = openMark (toggled mark c) s := rfl
    rw [List.cons_append, placeholders, placeholders, ih, hopen, Nat.add_assoc]

/-- The values of a text with as many placeholders stay in it. -/
theorem filled_append (mark : Option Char) (s t : List Char) {vs : List Value} (ws : List Value)
    (h : placeholders mark s = vs.length) :
    filled mark (s ++ t) (vs ++ ws) = filled mark s vs ++ filled (openMark mark s) t ws := by
  induction s generalizing mark vs with
  | nil =>
    obtain rfl : vs = [] := List.eq_nil_of_length_eq_zero h.symm
    rfl
  | cons c s ih =>
    have hopen : openMark mark (c :: s) = openMark (toggled mark c) s := rfl
    rw [placeholders] at h
    rw [hopen, List.cons_append]
    cases hc : isPlaceholder mark c with
    | false =>
      simp only [hc, Bool.false_eq_true, if_false, Nat.zero_add] at h
      simp only [filled, hc, ih _ h, List.cons_append]
    | true =>
      cases vs with
      | nil => simp [hc] at h
      | cons v vs =>
        have hs : placeholders (toggled mark c) s = vs.length := by
          simp only [hc, if_true, List.length_cons] at h
          omega
        simp only [filled, hc, ih _ hs, List.cons_append]

theorem filled_nil (mark : Option Char) (s : List Char) : filled mark s [] = s.map .char := by
  induction s generalizing mark with
  | nil => rfl
  | cons c s ih => simp [filled, ih]

/-- Nothing is open behind words, and they have no placeholders. -/
theorem quiet_of_words {s : List Char} (h : ∀ c ∈ s, (!isMark c && c != '?') = true) :
    openMark none s = none ∧ placeholders none s = 0 := by
  induction s with
  | nil => exact ⟨rfl, rfl⟩
  | cons c s ih =>
    obtain ⟨hopen, hcount⟩ := ih fun d hd => h d (List.mem_cons_of_mem c hd)
    have hc := h c (List.mem_cons_self ..)
    simp only [Bool.and_eq_true, Bool.not_eq_true', bne_iff_ne, ne_eq] at hc
    have htoggled : toggled none c = none := by simp [toggled, hc.1]
    constructor
    · rw [openMark, List.foldl_cons, htoggled]
      exact hopen
    · simp [placeholders, isPlaceholder, hc.2, htoggled, hcount]

/-- A doubled mark closes and opens again, so the whole of a doubled text stands inside. -/
theorem quiet_doubled {m : Char} (hm : isMark m = true) (s : List Char) :
    openMark (some m) (doubled m s) = some m ∧ placeholders (some m) (doubled m s) = 0 := by
  have hne : m ≠ '?' := by
    rintro rfl
    cases hm
  induction s with
  | nil => exact ⟨rfl, rfl⟩
  | cons c s ih =>
    obtain ⟨hopen, hcount⟩ := ih
    by_cases hc : c = m
    · subst hc
      have htwice : toggled (toggled (some c) c) c = some c := by simp [toggled, hm]
      have hcons : openMark (some c) (c :: c :: doubled c s) =
          openMark (toggled (toggled (some c) c) c) (doubled c s) := rfl
      rw [doubled, if_pos rfl]
      constructor
      · rw [hcons, htwice, hopen]
      · simp [placeholders, isPlaceholder, hne, htwice, hcount]
    · have honce : toggled (some m) c = some m := by simp [toggled, hc]
      have hcons : openMark (some m) (c :: doubled m s) =
          openMark (toggled (some m) c) (doubled m s) := rfl
      rw [doubled, if_neg hc]
      constructor
      · rw [hcons, honce, hopen]
      · simp [placeholders, isPlaceholder, honce, hcount]

end Text

open Text

namespace Fragment

/-- Every quotation mark is closed, and there is one binding for each placeholder. -/
structure IsBalanced (f : Fragment) : Prop where
  closed : openMark none f.text.toList = none
  count : placeholders none f.text.toList = f.bindings.length

/-- The text with its bindings in the place of its placeholders. -/
def filled (f : Fragment) : List Symbol := Text.filled none f.text.toList f.bindings

theorem isBalanced_empty : empty.IsBalanced := ⟨rfl, rfl⟩

theorem IsBalanced.append {f g : Fragment} (hf : f.IsBalanced) (hg : g.IsBalanced) :
    (f ++ g).IsBalanced where
  closed := by rw [text_append, String.toList_append, openMark_append, hf.closed, hg.closed]
  count := by
    rw [text_append, String.toList_append, placeholders_append, hf.closed, hf.count, hg.count,
      bindings_append, List.length_append]

theorem filled_append {f g : Fragment} (hf : f.IsBalanced) :
    (f ++ g).filled = f.filled ++ g.filled := by
  unfold filled
  rw [text_append, String.toList_append, bindings_append, Text.filled_append _ _ _ _ hf.count,
    hf.closed]

theorem filled_ofText (s : String) : (ofText s).filled = s.toList.map .char :=
  filled_nil none s.toList

/-- One placeholder and its value. -/
theorem isBalanced_placeholder (v : Value) :
    (bound Dialect.mysql.placeholder [v]).IsBalanced where
  closed := by
    rw [text_bound]
    decide
  count := by
    rw [text_bound]
    have hone : placeholders none Dialect.mysql.placeholder.toList = 1 := by decide
    exact hone

theorem filled_placeholder (v : Value) :
    (bound Dialect.mysql.placeholder [v]).filled = [.value v.binding] := by
  have hchars : Dialect.mysql.placeholder.toList = ['?'] := by decide
  rw [filled, text_bound, hchars]
  rfl

theorem isBalanced_words {parens : List Char} {s : String} (h : isWords parens s = true) :
    (ofText s).IsBalanced := by
  simp only [isWords, Bool.and_eq_true, List.all_eq_true] at h
  obtain ⟨hclosed, hcount⟩ := quiet_of_words fun c hc => Bool.and_eq_true _ _ ▸ h.1.2 c hc
  exact ⟨hclosed, hcount⟩

theorem isBalanced_quoted {m : Char} (hm : isMark m = true) (s : String) :
    (ofText (quoted m s)).IsBalanced := by
  obtain ⟨hopen, hcount⟩ := quiet_doubled hm s.toList
  have hfirst : toggled none m = some m := by simp [toggled, hm]
  have hlast : toggled (some m) m = none := by simp [toggled]
  have hm? : isPlaceholder none m = false := by
    have hne : m ≠ '?' := by
      rintro rfl
      cases hm
    simp [isPlaceholder, hne]
  constructor
  · rw [text_ofText, toList_quoted, openMark, List.foldl_cons, hfirst, ← openMark,
      openMark_append, hopen]
    exact hlast
  · rw [text_ofText, toList_quoted, placeholders, hfirst, hm?, placeholders_append, hcount, hopen]
    rfl

end Fragment

namespace Piece

/-- What a piece reads like with its values in it. The values of raw SQL fill its own
placeholders. -/
def inlined : Piece → List Symbol
  | .value v => [.value v.binding]
  | .count rows => [.value (.uint rows)]
  | .raw r => r.sql.filled
  | p => (p.sql .mysql).text.toList.map .char

theorem isBalanced_name (n : String) : (Fragment.ofText (Dialect.mysql.quote n)).IsBalanced :=
  Fragment.isBalanced_quoted (by decide) n

theorem isBalanced_column (qualifier : Option String) (n : String) :
    (Fragment.ofText (Dialect.mysql.qualify qualifier n)).IsBalanced := by
  have hname : (Fragment.ofText (if n = "*" then n else Dialect.mysql.quote n)).IsBalanced := by
    split
    · subst n
      exact ⟨by decide, by decide⟩
    · exact isBalanced_name n
  have hdot : (Fragment.ofText ".").IsBalanced := ⟨by decide, by decide⟩
  cases qualifier with
  | none => exact hname
  | some q =>
    have hqualified := ((isBalanced_name q).append hdot).append hname
    rwa [← Fragment.ofText_append, ← Fragment.ofText_append] at hqualified

theorem isBalanced_atom {p : Piece} (h : p.IsAtom fun r => r.sql.IsBalanced) :
    (p.sql .mysql).IsBalanced := by
  cases p with
  | words s => exact h.elim
  | name n => exact isBalanced_name n
  | column qualifier n => exact isBalanced_column qualifier n
  | literal s => exact Fragment.isBalanced_quoted (by decide) s
  | allRows => exact Fragment.isBalanced_words (Number.isWords_natText _)
  | value v => exact Fragment.isBalanced_placeholder v
  | count rows => exact Fragment.isBalanced_placeholder (.uint rows)
  | raw r => exact h

theorem filled_eq_inlined (p : Piece) : (p.sql .mysql).filled = p.inlined := by
  cases p with
  | value v => exact Fragment.filled_placeholder v
  | count rows => exact Fragment.filled_placeholder (.uint rows)
  | raw r => rfl
  | words s => exact Fragment.filled_ofText _
  | name n => exact Fragment.filled_ofText _
  | column qualifier n => exact Fragment.filled_ofText _
  | literal s => exact Fragment.filled_ofText _
  | allRows => exact Fragment.filled_ofText _

end Piece

namespace Layout

/-- A layout with its values in it. -/
def inlined (l : Layout) : List Symbol := l.flatMap Piece.inlined

theorem filled_cons {p : Piece} (l : Layout) (h : (p.sql .mysql).IsBalanced) :
    (write .mysql (p :: l)).filled = p.inlined ++ (write .mysql l).filled := by
  rw [write_cons, Fragment.filled_append h, Piece.filled_eq_inlined]

end Layout

/-- A layout of balanced pieces is balanced, and filling it gives its pieces, each with its own
values. -/
theorem Layout.filled_write {l : Layout} (h : ∀ p ∈ l, (p.sql .mysql).IsBalanced) :
    (l.write .mysql).IsBalanced ∧ (l.write .mysql).filled = l.inlined := by
  induction l with
  | nil => exact ⟨Fragment.isBalanced_empty, rfl⟩
  | cons p l ih =>
    have hp := h p (List.mem_cons_self ..)
    obtain ⟨hbalanced, hfilled⟩ := ih fun p hp => h p (List.mem_cons_of_mem _ hp)
    refine ⟨hp.append hbalanced, ?_⟩
    rw [Layout.filled_cons l hp, hfilled]
    rfl

theorem Phrase.isBalanced_pieces {l : Layout} (h : Phrase (fun r => r.sql.IsBalanced) l) :
    ∀ p ∈ l, (p.sql .mysql).IsBalanced :=
  h.forall_mem (fun _ hp => Piece.isBalanced_atom hp) fun _ _ hs => Fragment.isBalanced_words hs

/-- A statement with its values written in it, in the form a driver receives them. -/
def Query.inlined (q : Query) : List Symbol := q.layout.inlined

/-- The placeholders of a statement stand for its bindings in order: there are as many, and
filling them in order puts every value where its clause has it. -/
theorem Query.filled_sql {q : Query} {f : Fragment} (hraws : ∀ r ∈ q.raws, r.sql.IsBalanced)
    (h : q.sql .mysql = .ok f) : f.IsBalanced ∧ f.filled = q.inlined := by
  obtain ⟨-, rfl⟩ := (Query.sql_eq_ok_iff Dialect.visible_mysql).1 h
  exact Layout.filled_write (q.phrase_layout hraws).isBalanced_pieces

/-- The rows below those that a nested filter finds, with marks and question marks in names. -/
def Query.descendants : Query :=
  .select
    { Select.ofTable "a?\x60b" with
      tableAlias := some "t?"
      columns := [.ofColumn (.plain "id"), .rawColumn ⟨"IF(x = ?, '?', \x60?\x60)", [.int 1]⟩]
      filter :=
        ⟨[.comparison (.plain "k?") .eq (.list [.int 2, .int 3]),
          .group
            ⟨[.between (.plain "y") (.int 4) (.int 5) false,
              .existence
                { Select.ofTable "c" with
                  filter := ⟨[.oneOf (.plain "z\x60") [.null, .string "?"] false], .and⟩
                  limits := ⟨6, 0⟩ }
                true], .or⟩], .and⟩
      recursion := some ⟨"parent", "id"⟩ }

theorem Query.filled_sql_descendants :
    (∀ r ∈ Query.descendants.raws, r.sql.IsBalanced) ∧
      ∃ f, Query.descendants.sql .mysql = .ok f ∧
        f.bindings = [.int 1, .string "2,3", .int 4, .int 5, .null, .string "?", .uint 6, .int 1] ∧
        f.IsBalanced ∧ f.filled = Query.descendants.inlined := by
  have hraws : ∀ r ∈ Query.descendants.raws, r.sql.IsBalanced := by
    intro r hr
    obtain rfl : r = ⟨"IF(x = ?, '?', \x60?\x60)", [.int 1]⟩ := List.mem_singleton.1 hr
    exact ⟨by decide, by decide⟩
  have hsql : Query.descendants.sql .mysql = .ok (Query.descendants.layout.write .mysql) :=
    (Query.sql_eq_ok_iff Dialect.visible_mysql).2 ⟨rfl, rfl⟩
  exact ⟨hraws, _, hsql, rfl, Query.filled_sql hraws hsql⟩

end BoundSql
