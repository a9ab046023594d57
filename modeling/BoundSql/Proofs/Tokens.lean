import BoundSql.Proofs.Layout.SchemaPhrase

/-!
# Tokens

SQL text is read as tokens: names and literals without their quotation marks, placeholders, and
all other characters one by one. A quoted text ends where its writer ended it unless the same
mark follows, and in a phrase no mark does. So a phrase reads as its pieces, one after the other.
-/
namespace BoundSql

namespace Text

/-- What stands in SQL text. -/
inductive Token where
  | identifier (name : String)
  | literal (text : String)
  | placeholder
  | char (c : Char)
deriving DecidableEq

namespace Token

/-- What stood between two quotation marks. -/
def ofQuoted (mark : Char) (text : String) : Token :=
  if mark = '\x60' then .identifier text else .literal text

def ofChar (c : Char) : Token := if c = '?' then .placeholder else .char c

end Token

/-- What is read of a quoted text had its marks doubled, up to a lone mark. -/
theorem eq_doubled_of_unquote? {mark : Char} {cs s r : List Char}
    (h : unquote? mark cs = some (s, r)) :
    cs = doubled mark s ++ mark :: r ∧ r.head? ≠ some mark := by
  induction cs using unquote?.induct mark generalizing s with
  | case1 => cases h
  | case2 ds ih =>
    rw [unquote?, if_pos rfl] at h
    obtain ⟨⟨t, r'⟩, ht, heq⟩ := Option.map_eq_some_iff.1 ((if_pos rfl).symm.trans h)
    obtain ⟨rfl, rfl⟩ := Prod.mk.inj heq
    obtain ⟨rfl, hr⟩ := ih ht
    rw [doubled, if_pos rfl]
    exact ⟨rfl, hr⟩
  | case3 d ds hd =>
    rw [unquote?, if_pos rfl] at h
    obtain ⟨rfl, rfl⟩ := Prod.mk.inj (Option.some.inj ((if_neg hd).symm.trans h))
    exact ⟨rfl, fun hhead => hd (Option.some.inj hhead)⟩
  | case4 =>
    rw [unquote?, if_pos rfl] at h
    obtain ⟨rfl, rfl⟩ := Prod.mk.inj (Option.some.inj h)
    exact ⟨rfl, by simp⟩
  | case5 c cs hc ih =>
    rw [unquote?.eq_def] at h
    obtain ⟨⟨t, r'⟩, ht, heq⟩ := Option.map_eq_some_iff.1 ((if_neg hc).symm.trans h)
    obtain ⟨rfl, rfl⟩ := Prod.mk.inj heq
    obtain ⟨rfl, hr⟩ := ih ht
    rw [doubled, if_neg hc]
    exact ⟨rfl, hr⟩

theorem length_unquote? {mark : Char} {cs s rest : List Char}
    (h : unquote? mark cs = some (s, rest)) : rest.length < cs.length := by
  obtain ⟨rfl, -⟩ := eq_doubled_of_unquote? h
  rw [List.length_append, List.length_cons]
  omega

/-- The tokens of a text, unless a quotation mark in it is never closed. -/
def tokens? : List Char → Option (List Token)
  | [] => some []
  | c :: cs =>
    if isMark c then
      match _ : unquote? c cs with
      | some (s, rest) => (tokens? rest).map (.ofQuoted c (String.ofList s) :: ·)
      | none => none
    else (tokens? cs).map (.ofChar c :: ·)
termination_by cs => cs.length
decreasing_by
  · have hlt := length_unquote? ‹unquote? c cs = _›
    simp only [List.length_cons]
    omega
  · simp

/-- Text that no quotation mark opens may stand behind any token. -/
def Clear (cs : List Char) : Prop := ∀ c ∈ cs.head?, isMark c = false

namespace Clear

variable {rest : List Char} (hrest : Clear rest) {m : Char} (hm : isMark m = true)
include hrest hm

theorem head?_ne : rest.head? ≠ some m := by
  intro h
  have hfalse := hrest m h
  rw [hm] at hfalse
  cases hfalse

theorem head?_append_ne {cs : List Char} (hcs : cs.head? ≠ some m) :
    (cs ++ rest).head? ≠ some m := by
  cases cs with
  | nil => exact hrest.head?_ne hm
  | cons c cs => exact hcs

end Clear

theorem tokens?_nil : tokens? [] = some [] := by rw [tokens?]

theorem tokens?_char {c : Char} (hc : isMark c = false) (cs : List Char) :
    tokens? (c :: cs) = (tokens? cs).map (.ofChar c :: ·) := by
  rw [tokens?, hc]
  rfl

theorem tokens?_mark {c : Char} (hc : isMark c = true) (cs : List Char) :
    tokens? (c :: cs) = (unquote? c cs).bind fun p =>
      (tokens? p.2).map (.ofQuoted c (String.ofList p.1) :: ·) := by
  rw [tokens?, if_pos hc]
  split
  · rename_i s rest h
    rw [h]
    rfl
  · rename_i h
    rw [h]
    rfl

/-- Words are read character by character. -/
theorem tokens?_words {s : List Char} (h : ∀ c ∈ s, (!isMark c && c != '?') = true)
    (rest : List Char) :
    tokens? (s ++ rest) = (tokens? rest).map (s.map .char ++ ·) := by
  induction s with
  | nil => simp
  | cons c s ih =>
    have hc := h c (List.mem_cons_self ..)
    simp only [Bool.and_eq_true, Bool.not_eq_true', bne_iff_ne, ne_eq] at hc
    have hchar : Token.ofChar c = .char c := by simp [Token.ofChar, hc.2]
    rw [List.cons_append, tokens?_char hc.1, ih fun d hd => h d (List.mem_cons_of_mem c hd),
      Option.map_map, hchar]
    rfl

/-- A quoted text is one token, whatever its characters are. -/
theorem tokens?_quoted {m : Char} (hm : isMark m = true) (s : String) {rest : List Char}
    (hrest : Clear rest) :
    tokens? ((quoted m s).toList ++ rest) = (tokens? rest).map (.ofQuoted m s :: ·) := by
  rw [toList_quoted, List.cons_append, List.append_assoc, List.singleton_append,
    tokens?_mark hm, unquote?_doubled m s.toList rest (hrest.head?_ne hm), Option.bind_some,
    String.ofList_toList]

/-- A text that is read on its own is read in the same way in front of text without a mark. -/
theorem tokens?_append {cs : List Char} {ts : List Token} (h : tokens? cs = some ts)
    {rest : List Char} (hrest : Clear rest) :
    tokens? (cs ++ rest) = (tokens? rest).map (ts ++ ·) := by
  induction cs using tokens?.induct generalizing ts with
  | case1 =>
    obtain rfl := Option.some.inj (tokens?_nil.symm.trans h)
    simp
  | case2 c cs hc s r hs ih =>
    rw [tokens?_mark hc, hs, Option.bind_some] at h
    obtain ⟨us, hus, rfl⟩ := Option.map_eq_some_iff.1 h
    obtain ⟨rfl, hr⟩ := eq_doubled_of_unquote? hs
    rw [List.cons_append, tokens?_mark hc, List.append_assoc, List.cons_append,
      unquote?_doubled _ _ _ (hrest.head?_append_ne hc hr), Option.bind_some, ih hus,
      Option.map_map]
    rfl
  | case3 c cs hc hs =>
    rw [tokens?_mark hc, hs] at h
    cases h
  | case4 c cs hc ih =>
    have hc : isMark c = false := Bool.eq_false_iff.2 hc
    rw [tokens?_char hc] at h
    obtain ⟨us, hus, rfl⟩ := Option.map_eq_some_iff.1 h
    rw [List.cons_append, tokens?_char hc, ih hus, Option.map_map]
    rfl

end Text

open Text

namespace Piece

/-- The tokens of a piece; raw SQL is left out. -/
def tokens : Piece → List Token
  | .words s => s.toList.map .char
  | .name n => [.identifier n]
  | .column qualifier n =>
    (qualifier.elim [] fun q => [.identifier q, .char '.']) ++
      (if n = "*" then [.char '*'] else [.identifier n])
  | .literal s => [.literal s]
  | .allRows => (Number.natText Dialect.mysql.maxRowCount.toNat).toList.map .char
  | .value _ => [.placeholder]
  | .count _ => [.placeholder]
  | .raw _ => []

/-- The piece is read as its tokens in front of any text that no mark opens. -/
def Reads (p : Piece) : Prop :=
  ∀ rest, Clear rest →
    tokens? ((p.sql .mysql).text.toList ++ rest) = (tokens? rest).map (p.tokens ++ ·)

theorem reads_name (n : String) : (Piece.name n).Reads := fun _ hrest =>
  tokens?_quoted (by decide) n hrest

theorem clear_cons {c : Char} (hc : isMark c = false) (cs : List Char) : Clear (c :: cs) := by
  rintro d hd
  obtain rfl : c = d := by simpa using hd
  exact hc

theorem reads_unqualified (n : String) : (Piece.column none n).Reads := by
  intro rest hrest
  by_cases hn : n = "*"
  · subst hn
    exact tokens?_char (c := '*') (by decide) rest
  · simpa [tokens, hn, sql, Dialect.mysql] using reads_name n rest hrest

theorem reads_column (qualifier : Option String) (n : String) :
    (Piece.column qualifier n).Reads := by
  intro rest hrest
  cases qualifier with
  | none => exact reads_unqualified n rest hrest
  | some q =>
    have hdot : ∀ cs, Clear ('.' :: cs) := clear_cons (by decide)
    have htext : ((Piece.column (some q) n).sql .mysql).text.toList ++ rest =
        ((Piece.name q).sql .mysql).text.toList ++
          ('.' :: (((Piece.column none n).sql .mysql).text.toList ++ rest)) := by
      simp [sql, Dialect.mysql]
    rw [htext, reads_name q _ (hdot _), tokens?_char (by decide), reads_unqualified n rest hrest,
      Option.map_map, Option.map_map]
    rfl

theorem reads_words {parens : List Char} {s : String} (hs : isWords parens s = true)
    (rest : List Char) :
    tokens? (s.toList ++ rest) = (tokens? rest).map ((Piece.words s).tokens ++ ·) := by
  simp only [isWords, Bool.and_eq_true, List.all_eq_true] at hs
  exact tokens?_words (fun c hc => by simpa using hs.1.2 c hc) rest

theorem reads_atom {p : Piece} (h : p.IsAtom fun _ => False) : p.Reads := by
  have hplaceholder : ∀ rest,
      tokens? (Dialect.mysql.placeholder.toList ++ rest) =
        (tokens? rest).map ([.placeholder] ++ ·) := fun rest =>
    tokens?_char (c := '?') (by decide) rest
  intro rest hrest
  cases p with
  | words s => exact h.elim
  | name n => exact reads_name n rest hrest
  | column qualifier n => exact reads_column qualifier n rest hrest
  | literal s => exact tokens?_quoted (by decide) s hrest
  | allRows => exact reads_words (Number.isWords_natText _) rest
  | value v => exact hplaceholder rest
  | count rows => exact hplaceholder rest
  | raw r => exact h.elim

end Piece

namespace Text

/-- Words are not empty and begin without a mark, so they may stand behind any token. -/
theorem clear_words {parens : List Char} {s : String} (hs : isWords parens s = true)
    (rest : List Char) : Clear (s.toList ++ rest) := by
  simp only [isWords, Bool.and_eq_true, List.all_eq_true, bne_iff_ne, ne_eq] at hs
  cases hchars : s.toList with
  | nil => exact absurd (String.toList_eq_nil_iff.1 hchars) hs.1.1
  | cons c cs =>
    have hc := hs.1.2 c (by simp [hchars])
    simp only [Bool.not_eq_true'] at hc
    exact Piece.clear_cons hc.1 _

end Text

namespace Layout

/-- The tokens of all pieces in order. -/
def tokens (l : Layout) : List Token := l.flatMap Piece.tokens

/-- The characters of a layout. -/
def chars (l : Layout) : List Char := (write .mysql l).text.toList

theorem chars_append (k l : Layout) : chars (k ++ l) = chars k ++ chars l := by
  simp [chars]

theorem chars_words_cons (s : String) (l : Layout) :
    chars (.words s :: l) = s.toList ++ chars l := by
  simp [chars, Piece.sql]

theorem tokens_append (k l : Layout) : tokens (k ++ l) = tokens k ++ tokens l :=
  List.flatMap_append

theorem tokens_cons (p : Piece) (l : Layout) : tokens (p :: l) = p.tokens ++ tokens l := rfl

end Layout

open Layout

/-- A phrase is read piece by piece if its atoms are read in front of any text that no mark
opens. -/
theorem Phrase.tokens?_chars_of {R : RawSql → Prop} {g : Piece → List Token}
    (hwords : ∀ s, g (.words s) = s.toList.map .char)
    (hatom : ∀ p : Piece, p.IsAtom R → ∀ rest, Clear rest →
      tokens? ((p.sql .mysql).text.toList ++ rest) = (tokens? rest).map (g p ++ ·))
    {l : Layout} (h : Phrase R l) {rest : List Char} (hrest : Clear rest) :
    tokens? (l.chars ++ rest) = (tokens? rest).map (l.flatMap g ++ ·) := by
  have hread : ∀ {parens s} (cs : List Char), isWords parens s = true →
      tokens? (s.toList ++ cs) = (tokens? cs).map (g (.words s) ++ ·) := by
    intro parens s cs hs
    rw [Piece.reads_words hs, hwords]
    rfl
  induction h generalizing rest with
  | nil => simp [chars]
  | @atom p hp =>
    have hchars : Layout.chars [p] = (p.sql .mysql).text.toList := by simp [chars]
    rw [hchars, hatom p hp rest hrest]
    simp
  | @beside s k l hs _ _ ihk ihl =>
    rw [chars_append, chars_words_cons, List.append_assoc, List.append_assoc,
      ihk (clear_words hs _), hread _ hs, ihl hrest, List.flatMap_append, List.flatMap_cons,
      Option.map_map, Option.map_map]
    simp [Function.comp_def]
  | @around s t k l m hs ht _ _ _ ihk ihl ihm =>
    rw [chars_append, chars_words_cons, chars_append, chars_words_cons]
    simp only [List.append_assoc]
    rw [ihk (clear_words hs _), hread _ hs, ihl (clear_words ht _), hread _ ht, ihm hrest,
      List.flatMap_append, List.flatMap_cons, List.flatMap_append, List.flatMap_cons]
    simp [Option.map_map, Function.comp_def]

/-- A phrase is read as its pieces, whatever stands in its names and literals. -/
theorem Phrase.tokens?_chars {l : Layout} (h : Phrase (fun _ => False) l) {rest : List Char}
    (hrest : Clear rest) : tokens? (l.chars ++ rest) = (tokens? rest).map (l.tokens ++ ·) :=
  h.tokens?_chars_of (fun _ => rfl) (fun _ hp => Piece.reads_atom hp) hrest

theorem Phrase.tokens?_chars_eq {l : Layout} (h : Phrase (fun _ => False) l) :
    tokens? l.chars = some l.tokens := by
  have hclear : Clear [] := by simp [Clear]
  have hread := h.tokens?_chars hclear
  simpa [tokens?_nil] using hread

end BoundSql
