import BoundSql.Proofs.Reading.Mark

/-!
# Readers

A reader takes what it understands from the beginning of the marks and hands back the rest. Fixed
texts are told apart by tables in which no text begins another, so the first that matches is the
only one. Where a part may end or be missing, the texts that can follow it must not match either:
a reader that meets one of them stops.
-/
namespace BoundSql

open Text

/-- Reads from the beginning and gives back what is left. -/
abbrev MarkReader (α : Type) := List Mark → Option (α × List Mark)

namespace Text

/-! ## Fixed texts -/

/-- What is left behind a text. -/
def skipChars? : List Char → List Mark → Option (List Mark)
  | [], ms => some ms
  | c :: cs, .char d :: ms => if c = d then skipChars? cs ms else none
  | _ :: _, _ => none

def skip? (s : String) (ms : List Mark) : Option (List Mark) := skipChars? s.toList ms

/-- The texts differ in some place that both of them have. -/
def clashChars : List Char → List Char → Bool
  | c :: s, d :: t => c != d || clashChars s t
  | _, _ => false

def clash (s t : String) : Bool := clashChars s.toList t.toList

theorem skip?_marks (s : String) (rest : List Mark) : skip? s (marks s ++ rest) = some rest := by
  unfold skip? marks
  induction s.toList with
  | nil => rfl
  | cons c cs ih => simpa [skipChars?] using ih

theorem skip?_clash {s t : String} (h : clash s t = true) (rest : List Mark) :
    skip? s (marks t ++ rest) = none := by
  unfold clash at h
  unfold skip? marks
  generalize s.toList = s, t.toList = t at *
  induction s generalizing t with
  | nil => simp [clashChars] at h
  | cons c s ih =>
    cases t with
    | nil => simp [clashChars] at h
    | cons d t =>
      by_cases hc : c = d
      · subst hc
        simpa [skipChars?] using ih t (by simpa [clashChars] using h)
      · simp [skipChars?, hc]

theorem skip?_nil {s : String} (h : s ≠ "") : skip? s [] = none := by
  unfold skip?
  cases hs : s.toList with
  | nil => exact absurd (String.toList_eq_nil_iff.1 hs) h
  | cons c cs => rfl

theorem skip?_name {s : String} (h : s ≠ "") (n : String) (rest : List Mark) :
    skip? s (.name n :: rest) = none := by
  unfold skip?
  cases hs : s.toList with
  | nil => exact absurd (String.toList_eq_nil_iff.1 hs) h
  | cons c cs => rfl

/-! ## Ends -/

/-- Nothing is left, or one of the texts comes next. -/
def Ends (texts : List String) (ms : List Mark) : Prop :=
  ms = [] ∨ ∃ t ∈ texts, ∃ rest, ms = marks t ++ rest

/-- None of the texts can be taken for the beginning of `s`. -/
def excludes (texts : List String) (s : String) : Bool := s != "" && texts.all (clash s)

theorem ends_nil (texts : List String) : Ends texts [] := .inl rfl

theorem ends_marks {texts : List String} {t : String} (h : t ∈ texts) (rest : List Mark) :
    Ends texts (marks t ++ rest) := .inr ⟨t, h, rest, rfl⟩

theorem Ends.mono {texts texts' : List String} {ms : List Mark} (h : Ends texts ms)
    (hsub : texts ⊆ texts') : Ends texts' ms := by
  rcases h with rfl | ⟨t, ht, rest, rfl⟩
  · exact ends_nil _
  · exact ends_marks (hsub ht) rest

/-- A part that is missing or begins with words may stand in front. -/
theorem Ends.headed {texts : List String} {ms : List Mark} (h : Ends texts ms) (before : String)
    (l : Layout) : Ends (before :: texts) (Layout.marks (Layout.headed before l) ++ ms) := by
  cases l with
  | nil => exact h.mono (List.subset_cons_self ..)
  | cons p l =>
    have hmarks : Layout.marks (Layout.headed before (p :: l)) ++ ms =
        marks before ++ (Layout.marks (p :: l) ++ ms) := List.append_assoc ..
    rw [hmarks]
    exact ends_marks (List.mem_cons_self ..) _

theorem Ends.skip?_eq_none {texts : List String} {ms : List Mark} (h : Ends texts ms) {s : String}
    (hs : excludes texts s = true) : skip? s ms = none := by
  simp only [excludes, Bool.and_eq_true, bne_iff_ne, List.all_eq_true] at hs
  rcases h with rfl | ⟨t, ht, rest, rfl⟩
  · exact skip?_nil hs.1
  · exact skip?_clash (hs.2 t ht) rest

/-! ## Tables -/

section
variable {α : Type}

/-- The entry whose text comes first, and what is left behind it. -/
def lookup? (table : List (String × α)) : MarkReader α := fun ms =>
  table.findSome? fun e => (skip? e.1 ms).map (e.2, ·)

theorem lookup?_eq_none {table : List (String × α)} {ms : List Mark}
    (h : ∀ e ∈ table, skip? e.1 ms = none) : lookup? table ms = none := by
  rw [lookup?, List.findSome?_eq_none_iff]
  intro e he
  rw [h e he]
  rfl

/-- No text of the table clashes with none of the others: the first match is the only one. -/
theorem lookup?_marks {table : List (String × α)}
    (htable : table.Pairwise fun d e => clash d.1 e.1 = true) {e : String × α} (he : e ∈ table)
    (rest : List Mark) : lookup? table (marks e.1 ++ rest) = some (e.2, rest) := by
  induction table with
  | nil => cases he
  | cons d table ih =>
    rw [List.pairwise_cons] at htable
    rw [lookup?, List.findSome?_cons]
    rcases List.mem_cons.1 he with rfl | he
    · rw [skip?_marks]
      rfl
    · rw [skip?_clash (htable.1 e he)]
      exact ih htable.2 he

theorem Ends.lookup?_eq_none {texts : List String} {ms : List Mark} (h : Ends texts ms)
    (table : List (String × α)) (hs : (table.all fun e => excludes texts e.1) = true) :
    lookup? table ms = none :=
  Text.lookup?_eq_none fun e he => h.skip?_eq_none (List.all_eq_true.1 hs e he)

/-! ## Lists -/

/-- One item or more, with a separator between them. -/
def many (separator : String) (p : MarkReader α) : Nat → MarkReader (List α)
  | 0, _ => none
  | n + 1, ms => do
    let (a, ms) ← p ms
    match skip? separator ms with
    | some ms => do
      let (as, ms) ← many separator p n ms
      return (a :: as, ms)
    | none => return ([a], ms)

/-- The reader takes a layout for a value wherever one of the texts comes next. -/
def Takes (texts : List String) (p : MarkReader α) (l : Layout) (a : α) : Prop :=
  ∀ rest, Ends texts rest → p (l.marks ++ rest) = some (a, rest)

theorem Takes.mono {texts texts' : List String} {p : MarkReader α} {l : Layout} {a : α}
    (h : Takes texts' p l a) (hsub : texts ⊆ texts') : Takes texts p l a :=
  fun rest hrest => h rest (hrest.mono hsub)

/-- Items are read one by one if each can be read in front of the separator and of what ends the
list. -/
theorem many_intercalate {β : Type} (separator : String) {texts : List String} {p : MarkReader α}
    {f : β → α} {g : β → Layout} (hseparator : excludes texts separator = true) {bs : List β}
    (hitems : ∀ b ∈ bs, Takes (separator :: texts) p (g b) (f b)) (hne : bs ≠ []) {n : Nat}
    (hn : bs.length ≤ n) :
    Takes texts (many separator p n) (List.intercalate [.words separator] (bs.map g))
      (bs.map f) := by
  intro rest hrest
  induction bs generalizing n with
  | nil => exact absurd rfl hne
  | cons b bs ih =>
    obtain ⟨n, rfl⟩ : ∃ m, n = m + 1 := ⟨n - 1, by simp at hn; omega⟩
    have hb := hitems b (List.mem_cons_self ..)
    cases bs with
    | nil =>
      have hlast := hb rest (hrest.mono (List.subset_cons_self ..))
      simp only [List.map_cons, List.map_nil, List.intercalate_singleton]
      simp [many, hlast, hrest.skip?_eq_none hseparator]
    | cons c cs =>
      have hrests := ih (fun d hd => hitems d (List.mem_cons_of_mem b hd)) (by simp)
        (by simpa using hn)
      have hfirst := hb _ (ends_marks (List.mem_cons_self ..)
        (Layout.marks (List.intercalate [.words separator] ((c :: cs).map g)) ++ rest))
      rw [List.map_cons, List.map_cons, List.intercalate_cons_cons, ← List.map_cons]
      simp only [Layout.marks_append, Layout.marks_cons, Layout.marks_nil, Piece.marks,
        List.append_nil, List.append_assoc]
      simp only [many, hfirst, skip?_marks, hrests, Option.bind_eq_bind, Option.bind_some]
      rfl

end
end Text

end BoundSql
