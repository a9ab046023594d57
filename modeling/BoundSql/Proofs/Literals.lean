import BoundSql.Proofs.Defaults
import BoundSql.Proofs.Tokens

/-!
# Literals of definitions

In a string literal of the database a backslash begins an escape, and a literal is written with
its quotes doubled and its backslashes as they are. So a literal is read as its own text, and ends
where it was written to end, exactly if none of its backslashes begins an escape that stands for
something else: behind each one stands `%` or `_`, which keep it. A definition is read as it was
laid out if and only if this holds of all its literals.
-/
namespace BoundSql

open Layout

namespace Text

/-! ## Reading literals -/

/-- The control characters that have a letter behind a backslash. -/
def controls : List (Char × Char) :=
  [('0', '\x00'), ('b', '\x08'), ('n', '\n'), ('r', '\r'), ('t', '\t'), ('Z', '\x1a')]

/-- The wildcards of patterns. -/
def isWildcard (c : Char) : Bool := c == '%' || c == '_'

/-- What a backslash and the character behind it stand for: a wildcard keeps the backslash, some
letters are control characters, and every other character stands for itself. -/
def unescaped (c : Char) : List Char :=
  if isWildcard c then ['\\', c] else [(controls.lookup c).getD c]

/-- Reads a literal behind its opening quote, and what follows its closing quote; `none` when it is
never closed. -/
def readLiteral? : List Char → Option (List Char × List Char)
  | [] => none
  | c :: cs =>
    if c = '\x27' then
      match cs with
      | [] => some ([], [])
      | d :: ds =>
        if d = '\x27' then (readLiteral? ds).map (Prod.map ('\x27' :: ·) id)
        else some ([], d :: ds)
    else if c = '\\' then
      match cs with
      | [] => none
      | d :: ds => (readLiteral? ds).map (Prod.map (unescaped d ++ ·) id)
    else (readLiteral? cs).map (Prod.map (c :: ·) id)

/-- Every backslash keeps itself, as a wildcard of patterns stands behind it. -/
def isFaithful : List Char → Bool
  | [] => true
  | c :: cs =>
    if c = '\\' then
      match cs with
      | [] => false
      | d :: ds => isWildcard d && isFaithful ds
    else isFaithful cs

section
variable (cs : List Char)

theorem readLiteral?_quotes :
    readLiteral? ('\x27' :: '\x27' :: cs) = (readLiteral? cs).map (Prod.map ('\x27' :: ·) id) := by
  rw [readLiteral?.eq_def]
  simp

theorem readLiteral?_close {cs : List Char} (h : cs.head? ≠ some '\x27') :
    readLiteral? ('\x27' :: cs) = some ([], cs) := by
  rw [readLiteral?.eq_def]
  cases cs with
  | nil => simp
  | cons d ds =>
    have hd : d ≠ '\x27' := fun hd => h (congrArg some hd)
    simp [hd]

theorem readLiteral?_escape (c : Char) :
    readLiteral? ('\\' :: c :: cs) = (readLiteral? cs).map (Prod.map (unescaped c ++ ·) id) := by
  rw [readLiteral?.eq_def]
  simp

theorem readLiteral?_char {c : Char} (hquote : c ≠ '\x27') (hslash : c ≠ '\\') :
    readLiteral? (c :: cs) = (readLiteral? cs).map (Prod.map (c :: ·) id) := by
  rw [readLiteral?.eq_def]
  simp [hquote, hslash]

theorem isFaithful_escape (c : Char) :
    isFaithful ('\\' :: c :: cs) = (isWildcard c && isFaithful cs) := by
  rw [isFaithful.eq_def]
  simp

theorem isFaithful_char {c : Char} (hslash : c ≠ '\\') : isFaithful (c :: cs) = isFaithful cs := by
  rw [isFaithful.eq_def]
  simp [hslash]

end

/-! ## What a literal is read as -/

theorem unescaped_of_isWildcard {c : Char} (h : isWildcard c = true) :
    unescaped c = ['\\', c] := if_pos h

/-- Beside a backslash only the wildcards give a text that begins with one. -/
theorem isWildcard_of_unescaped {c : Char} {s u : List Char} (hslash : c ≠ '\\')
    (h : unescaped c ++ u = '\\' :: s) : isWildcard c = true := by
  cases hwild : isWildcard c with
  | true => rfl
  | false =>
    have hcontrols : (controls.all fun p => p.2 != '\\') = true := by decide
    rw [unescaped, hwild] at h
    obtain ⟨hc, -⟩ := List.cons.inj h
    cases hcontrol : controls.lookup c with
    | none =>
      rw [hcontrol] at hc
      exact absurd hc hslash
    | some d =>
      obtain ⟨before, after, hmem, -⟩ := List.lookup_eq_some_iff.1 hcontrol
      have hd := List.all_eq_true.1 hcontrols (c, d) (hmem ▸ List.mem_append_cons_self)
      rw [hcontrol, Option.getD_some] at hc
      exact absurd hc (by simpa using hd)

/-- A character without an escape is read as itself, a quote from two of them. -/
theorem readLiteral?_doubled_cons {c : Char} (hc : c ≠ '\\') (s rest : List Char) :
    readLiteral? (doubled '\x27' (c :: s) ++ rest) =
      (readLiteral? (doubled '\x27' s ++ rest)).map (Prod.map (c :: ·) id) := by
  rw [doubled]
  split
  · rename_i hquote
    rw [List.cons_append, List.cons_append, readLiteral?_quotes, hquote]
  · rename_i hquote
    rw [List.cons_append, readLiteral?_char _ hquote hc]

/-- A backslash takes the first of two quotes away, and otherwise the next character. -/
theorem readLiteral?_doubled_escape {d : Char} {s rest u r : List Char}
    (h : readLiteral? (doubled '\x27' ('\\' :: d :: s) ++ rest) = some (u, r)) :
    d = '\x27' ∧ (∃ v, u = '\x27' :: v) ∨
      d ≠ '\x27' ∧ ∃ v, u = unescaped d ++ v ∧
        readLiteral? (doubled '\x27' s ++ rest) = some (v, r) := by
  rw [doubled, if_neg (by decide), doubled] at h
  by_cases hd : d = '\x27'
  · rw [if_pos hd, List.cons_append, List.cons_append, readLiteral?_escape] at h
    obtain ⟨⟨v, r'⟩, -, heq⟩ := Option.map_eq_some_iff.1 h
    obtain ⟨rfl, -⟩ := Prod.mk.inj heq
    exact .inl ⟨hd, v, rfl⟩
  · rw [if_neg hd, List.cons_append, List.cons_append, readLiteral?_escape] at h
    obtain ⟨⟨v, r'⟩, hread, heq⟩ := Option.map_eq_some_iff.1 h
    obtain ⟨rfl, rfl⟩ := Prod.mk.inj heq
    exact .inr ⟨hd, v, rfl, hread⟩

/-- A backslash at the end takes the closing quote away. -/
theorem readLiteral?_trailing {rest u r : List Char}
    (h : readLiteral? (doubled '\x27' ['\\'] ++ '\x27' :: rest) = some (u, r)) :
    ∃ v, u = '\x27' :: v := by
  have htext : doubled '\x27' ['\\'] ++ '\x27' :: rest = '\\' :: '\x27' :: rest := rfl
  rw [htext, readLiteral?_escape] at h
  obtain ⟨⟨v, r'⟩, -, heq⟩ := Option.map_eq_some_iff.1 h
  obtain ⟨rfl, -⟩ := Prod.mk.inj heq
  exact ⟨v, rfl⟩

/-- Text with every backslash in front of a wildcard is read as it was written. -/
theorem readLiteral?_of_isFaithful {s rest : List Char} (h : isFaithful s = true)
    (hrest : rest.head? ≠ some '\x27') :
    readLiteral? (doubled '\x27' s ++ '\x27' :: rest) = some (s, rest) := by
  induction s using isFaithful.induct with
  | case1 => exact readLiteral?_close hrest
  | case2 => cases h
  | case3 d ds ih =>
    rw [isFaithful_escape, Bool.and_eq_true] at h
    have hd : d ≠ '\x27' := by
      rintro rfl
      exact absurd h.1 (by decide)
    rw [doubled, if_neg (by decide), doubled, if_neg hd, List.cons_append, List.cons_append,
      readLiteral?_escape, ih h.2, unescaped_of_isWildcard h.1]
    rfl
  | case4 c cs hc ih =>
    rw [isFaithful_char _ hc] at h
    rw [readLiteral?_doubled_cons hc, ih h]
    rfl

/-- No text is read with more backslashes in front of it. -/
theorem ne_replicate_of_readLiteral? {s rest u r : List Char} (n : Nat)
    (h : readLiteral? (doubled '\x27' s ++ '\x27' :: rest) = some (u, r)) :
    u ≠ List.replicate (n + 1) '\\' ++ s := by
  rw [List.replicate_succ, List.cons_append]
  induction s using isFaithful.induct generalizing n u with
  | case1 =>
    rw [doubled, List.nil_append] at h
    by_cases hrest : rest.head? = some '\x27'
    · obtain ⟨cs, rfl⟩ := List.head?_eq_some_iff.1 hrest
      rw [readLiteral?_quotes] at h
      obtain ⟨⟨v, r'⟩, -, heq⟩ := Option.map_eq_some_iff.1 h
      obtain ⟨rfl, -⟩ := Prod.mk.inj heq
      exact fun heq => absurd (List.cons.inj heq).1 (by decide)
    · rw [readLiteral?_close hrest] at h
      obtain ⟨rfl, -⟩ := Prod.mk.inj (Option.some.inj h)
      exact (List.cons_ne_nil _ _).symm
  | case2 =>
    obtain ⟨v, rfl⟩ := readLiteral?_trailing h
    intro heq
    exact absurd (List.cons.inj heq).1 (by decide)
  | case3 d ds ih =>
    rcases readLiteral?_doubled_escape h with ⟨-, v, rfl⟩ | ⟨-, v, rfl, hread⟩
    · intro heq
      exact absurd (List.cons.inj heq).1 (by decide)
    · intro heq
      by_cases hd : d = '\\'
      · subst hd
        have hmore : List.replicate n '\\' ++ '\\' :: '\\' :: ds =
            '\\' :: (List.replicate (n + 1) '\\' ++ ds) := by
          rw [List.append_cons, ← List.replicate_succ', List.append_cons, ← List.replicate_succ']
          rfl
        exact ih (n + 1) hread ((List.cons.inj heq).2.trans hmore)
      · have hwild := isWildcard_of_unescaped hd heq
        rw [unescaped_of_isWildcard hwild] at heq
        have htail : d :: v = List.replicate n '\\' ++ '\\' :: d :: ds := (List.cons.inj heq).2
        cases n with
        | zero => exact hd (List.cons.inj htail).1
        | succ n => exact hd (List.cons.inj htail).1
  | case4 c cs hc ih =>
    rw [readLiteral?_doubled_cons hc] at h
    obtain ⟨⟨v, r'⟩, -, heq⟩ := Option.map_eq_some_iff.1 h
    obtain ⟨rfl, -⟩ := Prod.mk.inj heq
    exact fun heq => hc (List.cons.inj heq).1

/-- A text that is read as it was written has every backslash in front of a wildcard. -/
theorem isFaithful_of_readLiteral? {s rest r : List Char}
    (h : readLiteral? (doubled '\x27' s ++ '\x27' :: rest) = some (s, r)) :
    isFaithful s = true := by
  induction s using isFaithful.induct with
  | case1 => rfl
  | case2 =>
    obtain ⟨v, hv⟩ := readLiteral?_trailing h
    exact absurd (List.cons.inj hv).1 (by decide)
  | case3 d ds ih =>
    rcases readLiteral?_doubled_escape h with ⟨-, v, hv⟩ | ⟨-, v, hv, hread⟩
    · exact absurd (List.cons.inj hv).1 (by decide)
    · by_cases hd : d = '\\'
      · subst hd
        obtain rfl : '\\' :: ds = v := (List.cons.inj hv).2
        exact absurd rfl (ne_replicate_of_readLiteral? 0 hread)
      · have hwild := isWildcard_of_unescaped hd hv.symm
        rw [unescaped_of_isWildcard hwild] at hv
        obtain rfl : ds = v := by simpa using hv
        rw [isFaithful_escape, hwild, ih hread]
        rfl
  | case4 c cs hc ih =>
    rw [readLiteral?_doubled_cons hc] at h
    obtain ⟨⟨v, r'⟩, hread, heq⟩ := Option.map_eq_some_iff.1 h
    obtain ⟨hv, rfl⟩ := Prod.mk.inj heq
    obtain rfl : v = cs := (List.cons.inj hv).2
    rw [isFaithful_char _ hc]
    exact ih hread

/-! ## Tokens -/

section
variable {cs s r : List Char}

/-- A literal is read up to a lone quote, whatever follows that quote. -/
theorem exists_of_readLiteral? (h : readLiteral? cs = some (s, r)) :
    r.head? ≠ some '\x27' ∧ ∃ body, cs = body ++ '\x27' :: r ∧
      ∀ rest, rest.head? ≠ some '\x27' →
        readLiteral? (body ++ '\x27' :: rest) = some (s, rest) := by
  induction cs using readLiteral?.induct generalizing s with
  | case1 => cases h
  | case2 =>
    obtain ⟨rfl, rfl⟩ := Prod.mk.inj (Option.some.inj h)
    exact ⟨by simp, [], rfl, fun _ => readLiteral?_close⟩
  | case3 ds ih =>
    rw [readLiteral?_quotes] at h
    obtain ⟨⟨t, r'⟩, ht, heq⟩ := Option.map_eq_some_iff.1 h
    obtain ⟨rfl, rfl⟩ := Prod.mk.inj heq
    obtain ⟨hr, body, rfl, hread⟩ := ih ht
    refine ⟨hr, '\x27' :: '\x27' :: body, rfl, fun rest hrest => ?_⟩
    rw [List.cons_append, List.cons_append, readLiteral?_quotes, hread rest hrest]
    rfl
  | case4 d ds hd =>
    have hhead : (d :: ds).head? ≠ some '\x27' := fun hhead => hd (Option.some.inj hhead)
    rw [readLiteral?_close hhead] at h
    obtain ⟨rfl, rfl⟩ := Prod.mk.inj (Option.some.inj h)
    exact ⟨hhead, [], rfl, fun _ => readLiteral?_close⟩
  | case5 hc => cases h
  | case6 d ds hc ih =>
    rw [readLiteral?_escape] at h
    obtain ⟨⟨t, r'⟩, ht, heq⟩ := Option.map_eq_some_iff.1 h
    obtain ⟨rfl, rfl⟩ := Prod.mk.inj heq
    obtain ⟨hr, body, rfl, hread⟩ := ih ht
    refine ⟨hr, '\\' :: d :: body, rfl, fun rest hrest => ?_⟩
    rw [List.cons_append, List.cons_append, readLiteral?_escape, hread rest hrest]
    rfl
  | case7 c cs hquote hslash ih =>
    rw [readLiteral?_char _ hquote hslash] at h
    obtain ⟨⟨t, r'⟩, ht, heq⟩ := Option.map_eq_some_iff.1 h
    obtain ⟨rfl, rfl⟩ := Prod.mk.inj heq
    obtain ⟨hr, body, rfl, hread⟩ := ih ht
    refine ⟨hr, c :: body, rfl, fun rest hrest => ?_⟩
    rw [List.cons_append, readLiteral?_char _ hquote hslash, hread rest hrest]
    rfl

theorem length_readLiteral? (h : readLiteral? cs = some (s, r)) : r.length < cs.length := by
  obtain ⟨-, body, rfl, -⟩ := exists_of_readLiteral? h
  rw [List.length_append, List.length_cons]
  omega

end

/-- The tokens of a text, with escapes in its literals and none in its names, unless a quotation
mark in it is never closed. Double quotes and comments are characters like others: only raw SQL
could have them. -/
def lex? : List Char → Option (List Token)
  | [] => some []
  | c :: cs =>
    if c = '\x60' then
      match _ : unquote? c cs with
      | some (s, rest) => (lex? rest).map (.identifier (String.ofList s) :: ·)
      | none => none
    else if c = '\x27' then
      match _ : readLiteral? cs with
      | some (s, rest) => (lex? rest).map (.literal (String.ofList s) :: ·)
      | none => none
    else (lex? cs).map (.ofChar c :: ·)
termination_by cs => cs.length
decreasing_by
  · have hlt := length_unquote? ‹unquote? c cs = _›
    simp only [List.length_cons]
    omega
  · have hlt := length_readLiteral? ‹readLiteral? cs = _›
    simp only [List.length_cons]
    omega
  · simp

theorem lex?_nil : lex? [] = some [] := by rw [lex?]

theorem lex?_char {c : Char} (hc : isMark c = false) (cs : List Char) :
    lex? (c :: cs) = (lex? cs).map (.ofChar c :: ·) := by
  simp only [isMark, Bool.or_eq_false_iff, beq_eq_false_iff_ne, ne_eq] at hc
  rw [lex?, if_neg hc.1, if_neg hc.2]

theorem lex?_identifier (cs : List Char) :
    lex? ('\x60' :: cs) = (unquote? '\x60' cs).bind fun p =>
      (lex? p.2).map (.identifier (String.ofList p.1) :: ·) := by
  rw [lex?, if_pos rfl]
  split
  · rename_i s rest h
    rw [h]
    rfl
  · rename_i h
    rw [h]
    rfl

theorem lex?_literal (cs : List Char) :
    lex? ('\x27' :: cs) = (readLiteral? cs).bind fun p =>
      (lex? p.2).map (.literal (String.ofList p.1) :: ·) := by
  rw [lex?, if_neg (by decide), if_pos rfl]
  split
  · rename_i s rest h
    rw [h]
    rfl
  · rename_i h
    rw [h]
    rfl

/-- A text that is read on its own is read in the same way in front of text without a mark. -/
theorem lex?_append {cs : List Char} {ts : List Token} (h : lex? cs = some ts) {rest : List Char}
    (hrest : Clear rest) : lex? (cs ++ rest) = (lex? rest).map (ts ++ ·) := by
  induction cs using lex?.induct generalizing ts with
  | case1 =>
    obtain rfl := Option.some.inj (lex?_nil.symm.trans h)
    simp
  | case2 cs s r hs ih =>
    rw [lex?_identifier, hs, Option.bind_some] at h
    obtain ⟨us, hus, rfl⟩ := Option.map_eq_some_iff.1 h
    obtain ⟨rfl, hr⟩ := eq_doubled_of_unquote? hs
    rw [List.cons_append, lex?_identifier, List.append_assoc, List.cons_append,
      unquote?_doubled _ _ _ (hrest.head?_append_ne rfl hr), Option.bind_some, ih hus,
      Option.map_map]
    rfl
  | case3 cs hs =>
    rw [lex?_identifier, hs] at h
    cases h
  | case4 cs s r hs _ ih =>
    rw [lex?_literal, hs, Option.bind_some] at h
    obtain ⟨us, hus, rfl⟩ := Option.map_eq_some_iff.1 h
    obtain ⟨hr, body, rfl, hread⟩ := exists_of_readLiteral? hs
    rw [List.cons_append, lex?_literal, List.append_assoc, List.cons_append,
      hread _ (hrest.head?_append_ne rfl hr), Option.bind_some, ih hus, Option.map_map]
    rfl
  | case5 cs hs =>
    rw [lex?_literal, hs] at h
    cases h
  | case6 c cs hname hliteral ih =>
    have hc : isMark c = false := by simp [isMark, hname, hliteral]
    rw [lex?_char hc] at h
    obtain ⟨us, hus, rfl⟩ := Option.map_eq_some_iff.1 h
    rw [List.cons_append, lex?_char hc, ih hus, Option.map_map]
    rfl

/-- Words are read character by character. -/
theorem lex?_words {s : List Char} (h : ∀ c ∈ s, (!isMark c && c != '?') = true)
    (rest : List Char) : lex? (s ++ rest) = (lex? rest).map (s.map .char ++ ·) := by
  induction s with
  | nil => simp
  | cons c s ih =>
    have hc := h c (List.mem_cons_self ..)
    simp only [Bool.and_eq_true, Bool.not_eq_true', bne_iff_ne, ne_eq] at hc
    have hchar : Token.ofChar c = .char c := if_neg hc.2
    rw [List.cons_append, lex?_char hc.1, ih fun d hd => h d (List.mem_cons_of_mem c hd),
      Option.map_map, hchar]
    rfl

end Text

open Text

/-! ## Pieces -/

namespace Piece

/-- The tokens that a piece is laid out for; those of raw SQL are read from its text. -/
def scanned : Piece → List Token
  | .raw r => (lex? r.text.toList).getD []
  | p => p.tokens

/-- The text of a literal. -/
def literals : Piece → List String
  | .literal s => [s]
  | _ => []

theorem lex?_words {parens : List Char} {s : String} (hs : isWords parens s = true)
    (rest : List Char) :
    lex? (s.toList ++ rest) = (lex? rest).map ((Piece.words s).scanned ++ ·) := by
  simp only [isWords, Bool.and_eq_true, List.all_eq_true] at hs
  exact Text.lex?_words (fun c hc => by simpa using hs.1.2 c hc) rest

theorem lex?_name (n : String) : lex? (Text.quoted '\x60' n).toList = some [.identifier n] := by
  have hread := unquote?_doubled '\x60' n.toList [] (by simp)
  rw [toList_quoted, lex?_identifier, hread, Option.bind_some, lex?_nil, String.ofList_toList]
  rfl

theorem lex?_unqualified (n : String) :
    lex? (Dialect.mysql.qualify none n).toList = some (Piece.column none n).scanned := by
  by_cases hn : n = "*"
  · subst hn
    exact (lex?_char (c := '*') (by decide) []).trans (by rw [lex?_nil]; rfl)
  · simpa [scanned, tokens, hn, Dialect.mysql] using lex?_name n

theorem lex?_column (qualifier : Option String) (n : String) :
    lex? (Dialect.mysql.qualify qualifier n).toList = some (Piece.column qualifier n).scanned := by
  cases qualifier with
  | none => exact lex?_unqualified n
  | some q =>
    have htext : (Dialect.mysql.qualify (some q) n).toList =
        (Text.quoted '\x60' q).toList ++ '.' :: (Dialect.mysql.qualify none n).toList := by
      simp [Dialect.mysql]
    rw [htext, lex?_append (lex?_name q) (clear_cons (by decide) _), lex?_char (by decide),
      lex?_unqualified]
    rfl

/-- Every piece but a literal is read as it was laid out. -/
theorem lex?_text {p : Piece} (hp : p.IsAtom fun r => (lex? r.text.toList).isSome = true)
    (hliteral : p.literals = []) : lex? (p.sql .mysql).text.toList = some p.scanned := by
  have hplaceholder : lex? Dialect.mysql.placeholder.toList = some [.placeholder] :=
    (lex?_char (c := '?') (by decide) []).trans (by rw [lex?_nil]; rfl)
  cases p with
  | words s => exact hp.elim
  | literal s => cases hliteral
  | name n => exact lex?_name n
  | column qualifier n => exact lex?_column qualifier n
  | allRows =>
    have hread := lex?_words (Number.isWords_natText Dialect.mysql.maxRowCount.toNat) []
    rw [List.append_nil, lex?_nil] at hread
    exact hread
  | value v => exact hplaceholder
  | count rows => exact hplaceholder
  | raw r =>
    obtain ⟨ts, hts⟩ := Option.isSome_iff_exists.1 hp
    rw [scanned, hts]
    exact hts

end Piece

/-! ## Layouts -/

namespace Layout

/-- The tokens that a layout is laid out for. -/
def scanned (l : Layout) : List Token := l.flatMap Piece.scanned

/-- The texts of all literals in order. -/
def literals (l : Layout) : List String := l.flatMap Piece.literals

/-- Behind a piece that is not made of words no quotation mark follows. -/
def IsSpaced (R : RawSql → Prop) : Layout → Prop
  | [] => True
  | p :: l =>
    ((∃ parens s, isWords parens s = true ∧ p = .words s) ∨ p.IsAtom R ∧ Clear (chars l)) ∧
      IsSpaced R l

theorem chars_nil : chars [] = [] := by simp [chars]

theorem clear_append {k l : Layout} (hk : Clear (chars k)) (hl : Clear (chars l)) :
    Clear (chars (k ++ l)) := by
  rw [chars_append]
  cases hchars : chars k with
  | nil => exact hl
  | cons c cs =>
    rw [hchars] at hk
    exact hk

namespace IsSpaced

variable {R : RawSql → Prop} {k l : Layout}

theorem words_cons {parens : List Char} {s : String} (hs : isWords parens s = true)
    (hl : IsSpaced R l) : IsSpaced R (.words s :: l) :=
  ⟨.inl ⟨parens, s, hs, rfl⟩, hl⟩

theorem append (hk : IsSpaced R k) (hl : IsSpaced R l) (hclear : Clear (chars l)) :
    IsSpaced R (k ++ l) := by
  induction k with
  | nil => exact hl
  | cons p k ih =>
    obtain ⟨hp, hk⟩ := hk
    refine ⟨?_, ih hk⟩
    rcases hp with hp | ⟨hp, hspace⟩
    · exact .inl hp
    · exact .inr ⟨hp, clear_append hspace hclear⟩

end IsSpaced
end Layout

theorem Phrase.isSpaced {R : RawSql → Prop} {l : Layout} (h : Phrase R l) : IsSpaced R l := by
  have hclear : ∀ {parens s} (l : Layout), isWords parens s = true →
      Clear (chars (.words s :: l)) := by
    intro parens s l hs
    rw [chars_words_cons]
    exact clear_words hs _
  induction h with
  | nil => exact trivial
  | atom hp => exact ⟨.inr ⟨hp, by simp [chars_nil, Clear]⟩, trivial⟩
  | @beside s k l hs _ _ ihk ihl => exact ihk.append (.words_cons hs ihl) (hclear l hs)
  | @around s t k l m hs ht _ _ _ ihk ihl ihm =>
    have hrest := ihl.append (.words_cons ht ihm) (hclear m ht)
    exact ihk.append (.words_cons hs hrest) (hclear _ hs)

namespace Layout

/-- A literal is read as its own text only if that is faithful. -/
theorem isFaithful_of_lex? {s : String} {rest : List Char} {ts : List Token}
    (h : lex? ((Text.literal s).toList ++ rest) = some (.literal s :: ts)) :
    isFaithful s.toList = true := by
  rw [Text.literal, toList_quoted, List.cons_append, lex?_literal] at h
  obtain ⟨⟨u, r⟩, hread, htokens⟩ := Option.bind_eq_some_iff.1 h
  obtain ⟨us, -, heq⟩ := Option.map_eq_some_iff.1 htokens
  obtain rfl : String.ofList u = s := Token.literal.inj (List.cons.inj heq).1
  rw [List.append_assoc, String.toList_ofList] at hread
  rw [String.toList_ofList]
  exact isFaithful_of_readLiteral? hread

/-- A faithful literal is one token in front of any text that no mark opens. -/
theorem lex?_of_isFaithful {s : String} (hs : isFaithful s.toList = true) {rest : List Char}
    (hrest : Clear rest) :
    lex? ((Text.literal s).toList ++ rest) = (lex? rest).map (.literal s :: ·) := by
  have hhead : rest.head? ≠ some '\x27' := fun hhead => absurd (hrest _ hhead) (by decide)
  rw [Text.literal, toList_quoted, List.cons_append, List.append_assoc, lex?_literal,
    List.singleton_append, readLiteral?_of_isFaithful hs hhead, Option.bind_some,
    String.ofList_toList]

/-- A spaced layout is read as it was laid out if its literals are, and only then. -/
theorem lex?_chars_iff {l : Layout}
    (h : IsSpaced (fun r => (lex? r.text.toList).isSome = true) l) :
    lex? l.chars = some l.scanned ↔ ∀ s ∈ l.literals, isFaithful s.toList = true := by
  induction l with
  | nil =>
    rw [chars_nil]
    exact iff_of_true lex?_nil (List.forall_mem_nil _)
  | cons p l ih =>
    obtain ⟨hp, hl⟩ := h
    have hchars : chars (p :: l) = (p.sql .mysql).text.toList ++ chars l := by simp [chars]
    have hscanned : scanned (p :: l) = p.scanned ++ scanned l := rfl
    have hliterals : literals (p :: l) = p.literals ++ literals l := rfl
    rw [hchars, hscanned, hliterals, List.forall_mem_append, ← ih hl]
    -- A piece that is read as it was laid out leaves the question to what follows it.
    have hnext : ∀ cs, lex? (cs ++ chars l) = (lex? (chars l)).map (p.scanned ++ ·) →
        (lex? (cs ++ chars l) = some (p.scanned ++ scanned l) ↔
          lex? (chars l) = some (scanned l)) := by
      intro cs hread
      rw [hread, Option.map_eq_some_iff]
      simp
    rcases hp with ⟨parens, s, hs, rfl⟩ | ⟨hp, hclear⟩
    · exact (hnext s.toList (Piece.lex?_words hs _)).trans
        (and_iff_right (List.forall_mem_nil _)).symm
    · by_cases hliteral : p.literals = []
      · rw [hnext _ (lex?_append (Piece.lex?_text hp hliteral) hclear), hliteral]
        exact (and_iff_right (List.forall_mem_nil _)).symm
      · cases p with
        | literal s =>
          have hone : (∀ t ∈ (Piece.literal s).literals, isFaithful t.toList = true) ↔
              isFaithful s.toList = true := by simp [Piece.literals]
          rw [hone]
          constructor
          · intro hread
            have hs := isFaithful_of_lex? hread
            exact ⟨hs, (hnext _ (lex?_of_isFaithful hs hclear)).1 hread⟩
          · rintro ⟨hs, hrest⟩
            exact (hnext _ (lex?_of_isFaithful hs hclear)).2 hrest
        | _ => exact absurd rfl hliteral

end Layout

/-! ## Definitions -/

/-- The texts that stand in the literals of a column: members, character set, collation, default
and comment. -/
def Column.literals (c : Column) : List String :=
  let defaults := match c.default with
    | some (.text t) => if trim t = "" then [] else [trim t]
    | _ => []
  c.shownMembers ++ (shownText c.charset).toList ++ (shownText c.collation).toList ++ defaults ++
    (shownText c.comment).toList

theorem Column.literals_contents (c : Column) :
    c.contents.flatMap Piece.literals = c.literals := by
  have htexts : ∀ texts : List String,
      (texts.map Piece.literal).flatMap Piece.literals = texts := by
    intro texts
    induction texts with
    | nil => rfl
    | cons s rest ih => exact congrArg (s :: ·) ih
  rw [contents, literals, List.flatMap_append, List.flatMap_append, htexts, htexts]
  congr 2
  cases c.default with
  | none => rfl
  | some v =>
    cases v with
    | int n | float x => rfl
    | text t =>
      rw [Option.elim_some, ColumnDefault.contents]
      dsimp only
      split <;> rfl
    | raw r =>
      rw [Option.elim_some, ColumnDefault.contents]
      split <;> rfl

namespace Definition

def literals (x : Definition) : List String := x.columns.flatMap Column.literals

theorem literals_layout (x : Definition) : x.layout.literals = x.literals := by
  have hcollects : Piece.Collects Piece.literals := ⟨fun _ => rfl, fun _ => rfl⟩
  have hcolumns := x.flatMap_layout hcollects
  rw [Layout.literals, hcolumns, literals]
  exact congrArg x.columns.flatMap (funext Column.literals_contents)

/-- A text is read back from its literal, and the literal ends at its closing quote, exactly if
every backslash of the text stands in front of a wildcard. A definition whose raw defaults can be
read is read as it was laid out exactly if this holds of all its literals. -/
theorem lex?_eq_scanned_iff (s : String) {rest : List Char} (hrest : rest.head? ≠ some '\x27') :
    (∃ cs, (Text.literal s).toList ++ rest = '\x27' :: cs ∧
      (readLiteral? cs = some (s.toList, rest) ↔ isFaithful s.toList = true)) ∧
      ∀ (x : Definition) (f : Fragment),
        (∀ r ∈ x.defaultRaws, (lex? r.text.toList).isSome = true) → x.sql .mysql = .ok f →
          (lex? f.text.toList = some x.layout.scanned ↔
            ∀ t ∈ x.literals, isFaithful t.toList = true) := by
  constructor
  · refine ⟨doubled '\x27' s.toList ++ '\x27' :: rest, by simp [Text.literal], ?_⟩
    exact ⟨isFaithful_of_readLiteral?, fun h => readLiteral?_of_isFaithful h hrest⟩
  · intro x f hraws h
    obtain ⟨rfl, -⟩ := eq_write_of_sql h
    have hphrase : Phrase (fun r => (lex? r.text.toList).isSome = true) x.layout :=
      phrase_of_texts (P := fun s => (lex? s.toList).isSome = true) hraws
    rw [← literals_layout]
    exact Layout.lex?_chars_iff hphrase.isSpaced

/-- Quotes in every kind of literal, and backslashes in front of wildcards. -/
def labels : CreateTable :=
  { CreateTable.ofTable "labels" with
    columns :=
      [{ Column.enumeration "kind" ["it's", "10\\%", "''"] with
          default := some (.text " it's ")
          charset := some "utf8'"
          comment := some "LIKE '\\_%'" },
        { Column.ofType "since\\'" .dateTime with
          default := some (.raw ⟨"IF('\\'' = '''', NOW(), NULL)", []⟩) }] }

theorem lex?_eq_scanned_labels :
    (∀ r ∈ (Definition.table labels).defaultRaws, (lex? r.text.toList).isSome = true) ∧
      (∀ s ∈ (Definition.table labels).literals, isFaithful s.toList = true) ∧
      ∃ f, (Definition.table labels).sql .mysql = .ok f ∧
        lex? f.text.toList = some labels.layout.scanned ∧
        readLiteral? "LIKE ''\\_%''', 1".toList = some ("LIKE '\\_%'".toList, ", 1".toList) := by
  have hraws : ∀ r ∈ (Definition.table labels).defaultRaws,
      (lex? r.text.toList).isSome = true := by
    intro r hr
    obtain rfl : r = ⟨"IF('\\'' = '''', NOW(), NULL)", []⟩ := List.mem_singleton.1 hr
    decide +kernel
  have hliterals : (Definition.table labels).literals =
      ["it's", "10\\%", "''", "utf8'", "it's", "LIKE '\\_%'"] := by decide +kernel
  have hfaithful : ∀ s ∈ (Definition.table labels).literals, isFaithful s.toList = true := by
    rw [hliterals]
    exact List.all_eq_true.1 (by decide +kernel)
  have hsql : (Definition.table labels).sql .mysql = .ok (labels.layout.write .mysql) :=
    (Query.sql_eq_ok_iff Dialect.visible_mysql (q := .createTable labels)).2 ⟨rfl, rfl⟩
  obtain ⟨⟨cs, hcs, hread⟩, hdefinition⟩ :=
    @lex?_eq_scanned_iff "LIKE '\\_%'" ", 1".toList (by decide)
  obtain rfl : "LIKE ''\\_%''', 1".toList = cs := (List.cons.inj hcs).2
  exact ⟨hraws, hfaithful, _, hsql, (hdefinition _ _ hraws hsql).2 hfaithful,
    hread.2 (by decide +kernel)⟩

/-- A column with a backslash as its comment. -/
def slashed : Column := { Column.ofType "a" .int with comment := some "\\" }

/-- Its literal takes the closing quote along and goes on behind it, so the definition has no
tokens, and neither has the table. -/
theorem lex?_slashed :
    readLiteral? "\\', 'b'".toList = some ("', ".toList, "b'".toList) ∧
      slashed.sql .mysql = .ok ⟨"\x60a\x60 INT COMMENT '\\'", []⟩ ∧
      lex? "\x60a\x60 INT COMMENT '\\'".toList = none ∧
      CreateTable.sql .mysql { CreateTable.ofTable "t" with columns := [slashed] } =
        .ok ⟨"CREATE TABLE \x60t\x60 (\x60a\x60 INT COMMENT '\\')", []⟩ ∧
      lex? "CREATE TABLE \x60t\x60 (\x60a\x60 INT COMMENT '\\')".toList = none := by
  have hcolumn : slashed.sql .mysql = .ok ⟨"\x60a\x60 INT COMMENT '\\'", []⟩ := by
    have htext : slashed.text .mysql = "\x60a\x60 INT COMMENT '\\'" := by decide
    rw [Column.sql, Fragment.ofText, htext]
    rfl
  have htable : CreateTable.sql .mysql { CreateTable.ofTable "t" with columns := [slashed] } =
      .ok ⟨"CREATE TABLE \x60t\x60 (\x60a\x60 INT COMMENT '\\')", []⟩ :=
    (Query.sql_eq_ok_iff Dialect.visible_mysql (q := .createTable _)).2
      ⟨rfl, Fragment.ext (by decide) rfl⟩
  exact ⟨by decide +kernel, hcolumn, by decide +kernel, htable, by decide +kernel⟩

end Definition
end BoundSql
