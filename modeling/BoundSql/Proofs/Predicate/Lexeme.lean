import BoundSql.Proofs.Tokens

/-!
# Lexemes

For the reading of a predicate the characters outside quotation marks are grouped into words, and
blanks only set words apart. A character that belongs to no word ends one, so a text may be read
in parts that meet at such a character. Parentheses are found by their nesting depth.
-/
namespace BoundSql

open Layout

namespace Text

/-- A word, or what stands between words. -/
inductive Lexeme where
  /-- Letters, digits and underscores, in capitals. -/
  | word (text : String)
  | symbol (c : Char)
  | identifier (name : String)
  | literal (text : String)
  | placeholder
deriving DecidableEq

def isWordChar (c : Char) : Bool := c.isAlphanum || c == '_'

/-- The word of the characters read last, the latest first. -/
def wordOf (before : List Char) : List Lexeme :=
  if before = [] then [] else [.word (String.ofList (before.reverse.map Char.toUpper))]

/-- The lexemes behind the characters of a word that has begun. -/
def lexemes : List Char → List Token → List Lexeme
  | before, [] => wordOf before
  | before, .char c :: ts =>
    if isWordChar c then lexemes (c :: before) ts
    else wordOf before ++ ((if isSpace c then [] else [.symbol c]) ++ lexemes [] ts)
  | before, .identifier name :: ts => wordOf before ++ .identifier name :: lexemes [] ts
  | before, .literal text :: ts => wordOf before ++ .literal text :: lexemes [] ts
  | before, .placeholder :: ts => wordOf before ++ .placeholder :: lexemes [] ts

/-- A character outside of words parts what stands before it from what follows. -/
theorem lexemes_append {c : Char} (hc : isWordChar c = false) (before : List Char)
    (ts us : List Token) :
    lexemes before (ts ++ .char c :: us) = lexemes before ts ++ lexemes [] (.char c :: us) := by
  have hwordOf : wordOf [] = [] := rfl
  induction ts generalizing before with
  | nil => simp [lexemes, hc, hwordOf]
  | cons t ts ih =>
    cases t with
    | char d =>
      cases hd : isWordChar d with
      | true => simp [lexemes, hd, ih]
      | false => simp [lexemes, hd, ih]
    | identifier name => simp [lexemes, ih]
    | literal text => simp [lexemes, ih]
    | placeholder => simp [lexemes, ih]

theorem lexemes_space (ts us : List Token) :
    lexemes [] (ts ++ .char ' ' :: us) = lexemes [] ts ++ lexemes [] us := by
  rw [lexemes_append (by decide)]
  rfl

theorem lexemes_opening (ts us : List Token) :
    lexemes [] (ts ++ .char '(' :: us) = lexemes [] ts ++ .symbol '(' :: lexemes [] us := by
  rw [lexemes_append (by decide)]
  rfl

theorem lexemes_closing (ts us : List Token) :
    lexemes [] (ts ++ .char ')' :: us) = lexemes [] ts ++ .symbol ')' :: lexemes [] us := by
  rw [lexemes_append (by decide)]
  rfl

/-! ## Nesting -/

namespace Token

def paren? : Token → Option Char
  | .char c => if isParen c then some c else none
  | _ => none

end Token

namespace Lexeme

def paren? : Lexeme → Option Char
  | .symbol c => if isParen c then some c else none
  | _ => none

end Lexeme

/-- The depth behind parentheses; none of them closes more than is open. -/
def depth? : Nat → List Char → Option Nat
  | d, [] => some d
  | d, c :: cs =>
    if c = '(' then depth? (d + 1) cs
    else match d with
      | 0 => none
      | d + 1 => depth? d cs

theorem depth?_append (d : Nat) (s t : List Char) :
    depth? d (s ++ t) = (depth? d s).bind fun d => depth? d t := by
  induction s generalizing d with
  | nil => rfl
  | cons c s ih =>
    simp only [List.cons_append, depth?]
    split
    · exact ih _
    · cases d with
      | zero => rfl
      | succ d => exact ih d

theorem depth?_opening (d : Nat) (cs : List Char) : depth? d ('(' :: cs) = depth? (d + 1) cs := by
  rw [depth?.eq_def]
  rfl

theorem depth?_closing (d : Nat) (cs : List Char) : depth? (d + 1) (')' :: cs) = depth? d cs := rfl

/-- A class of characters to which no parenthesis belongs. -/
theorem isParen_eq_false {p : Char → Bool} {c : Char} (hopen : p '(' = false)
    (hclose : p ')' = false) (hc : p c = true) : isParen c = false := by
  cases h : isParen c with
  | false => rfl
  | true =>
    simp only [isParen, Bool.or_eq_true, beq_iff_eq] at h
    rcases h with rfl | rfl
    · rw [hopen] at hc
      cases hc
    · rw [hclose] at hc
      cases hc

/-- Words hold no parentheses, so the lexemes have the parentheses of the tokens. -/
theorem parens_lexemes (before : List Char) (ts : List Token) :
    (lexemes before ts).filterMap Lexeme.paren? = ts.filterMap Token.paren? := by
  have hword : ∀ before, (wordOf before).filterMap Lexeme.paren? = [] := by
    intro before
    unfold wordOf
    split <;> rfl
  induction ts generalizing before with
  | nil => exact hword before
  | cons t ts ih =>
    cases t with
    | char c =>
      cases hc : isWordChar c with
      | true =>
        have hparen := isParen_eq_false (by decide) (by decide) hc
        simp [lexemes, hc, ih, Token.paren?, hparen]
      | false =>
        cases hs : isSpace c with
        | true =>
          have hparen := isParen_eq_false (by decide) (by decide) hs
          simp [lexemes, hc, hs, ih, hword, Token.paren?, hparen]
        | false =>
          simp [lexemes, hc, hs, ih, hword, List.filterMap_cons, Token.paren?, Lexeme.paren?]
    | identifier name =>
      simp [lexemes, ih, hword, List.filterMap_cons, Token.paren?, Lexeme.paren?]
    | literal text =>
      simp [lexemes, ih, hword, List.filterMap_cons, Token.paren?, Lexeme.paren?]
    | placeholder =>
      simp [lexemes, ih, hword, List.filterMap_cons, Token.paren?, Lexeme.paren?]

end Text

open Text

namespace Layout

/-- The parentheses of a layout outside its names and literals. -/
def parens (l : Layout) : List Char := l.tokens.filterMap Token.paren?

theorem parens_append (k l : Layout) : parens (k ++ l) = parens k ++ parens l := by
  rw [parens, tokens_append, List.filterMap_append]
  rfl

theorem parens_cons (p : Piece) (l : Layout) :
    parens (p :: l) = p.tokens.filterMap Token.paren? ++ parens l := by
  rw [parens, tokens_cons, List.filterMap_append]
  rfl

end Layout

theorem Piece.parens_words {parens : List Char} {s : String} (hs : isWords parens s = true) :
    (Piece.words s).tokens.filterMap Token.paren? = parens := by
  simp only [isWords, Bool.and_eq_true, beq_iff_eq] at hs
  have hchars : ∀ cs : List Char,
      (cs.map Token.char).filterMap Token.paren? = cs.filter isParen := by
    intro cs
    induction cs with
    | nil => rfl
    | cons c cs ih =>
      simp only [List.map_cons, List.filterMap_cons, List.filter_cons, Token.paren?, ih]
      cases isParen c <;> rfl
  rw [Piece.tokens, hchars]
  exact hs.2

theorem Piece.parens_atom {R : RawSql → Prop} {p : Piece} (hp : p.IsAtom R) :
    p.tokens.filterMap Token.paren? = [] := by
  cases p with
  | words s => exact hp.elim
  | name n => rfl
  | column qualifier n =>
    cases qualifier <;> by_cases h : n = "*" <;> simp [tokens, h, Token.paren?] <;> decide
  | literal s => rfl
  | allRows => exact parens_words (Number.isWords_natText _)
  | value v => rfl
  | count rows => rfl
  | raw r => rfl

/-- Every parenthesis of a phrase is closed in it. -/
theorem Phrase.depth?_parens {R : RawSql → Prop} {l : Layout} (h : Phrase R l) (d : Nat) :
    depth? d l.parens = some d := by
  induction h generalizing d with
  | nil => rfl
  | atom hp =>
    rw [Layout.parens_cons, Piece.parens_atom hp]
    rfl
  | beside hs _ _ ihk ihl =>
    rw [parens_append, Layout.parens_cons, Piece.parens_words hs, List.nil_append, depth?_append,
      ihk, Option.bind_some, ihl]
  | around hs ht _ _ _ ihk ihl ihm =>
    rw [parens_append, Layout.parens_cons, parens_append, Layout.parens_cons, Piece.parens_words hs,
      Piece.parens_words ht, depth?_append, ihk, Option.bind_some, List.singleton_append,
      depth?_opening, depth?_append, ihl, Option.bind_some, List.singleton_append, depth?_closing,
      ihm]

end BoundSql
