import BoundSql.Json.Basic
import BoundSql.Number.Text

/-!
# JSON tokens

Text becomes tokens one character at a time. `Mode.feed` keeps what has been seen of a token
that is not complete and hands on the tokens that the next character completes: a number and a
word end at the first character that cannot belong to them.
-/
namespace BoundSql.Json

/-- A token. A string with half a surrogate pair has no text; a number beyond the doubles is an
`unreadable` scalar. -/
inductive Token where
  | openArray
  | closeArray
  | openObject
  | closeObject
  | comma
  | colon
  | scalar (value : Json)
  | string (text : Option String)

/-! ## Numbers -/

/-- Reads digits into a significand as long as it stays within 64 bits; the digits after that
are left. -/
def accumulate (significand : Nat) : List Char → Nat × List Char
  | [] => (significand, [])
  | c :: rest =>
    let next := significand * 10 + (c.toNat - '0'.toNat)
    if next < 0x10000000000000000 then accumulate next rest else (significand, c :: rest)

/-- An integer literal: a word of 64 bits if it fits one, else a double. `-0` is a double. -/
def wholeLiteral (negative : Bool) (ds : List Char) : Json :=
  let (significand, left) := accumulate 0 ds
  let double :=
    ((Number.Binary64.scaled? negative significand left.length).map Json.float).getD .unreadable
  if left ≠ [] ∨ (negative ∧ significand = 0) then double
  else ((Whole.ofInt? (if negative then -significand else significand)).map Json.whole).getD double

/-- A literal with a fraction or an exponent. Digits beyond 64 bits of significand only count
as places. -/
def floatLiteral (negative : Bool) (ds fraction : List Char) (exponent : Int) : Json :=
  let (significand, left) := accumulate 0 ds
  let (significand, unused) := accumulate significand fraction
  let places : Int := fraction.length - unused.length
  ((Number.Binary64.scaled? negative significand (left.length - places + exponent)).map
    Json.float).getD .unreadable

/-- A number literal: no plus sign, no leading zero, a digit on both sides of the point. -/
def numberLiteral? (cs : List Char) : Option Json :=
  let (negative, body) :=
    match cs with
    | '-' :: rest => (true, rest)
    | _ => (false, cs)
  let ds := body.takeWhile Char.isDigit
  let rest := body.dropWhile Char.isDigit
  if ds = [] ∨ (ds.head? = some '0' ∧ ds ≠ ['0']) then none
  else
    match rest with
    | [] => some (wholeLiteral negative ds)
    | '.' :: more =>
      let fraction := more.takeWhile Char.isDigit
      if fraction = [] then none
      else
        (Number.Binary64.exponent? (more.dropWhile Char.isDigit)).map
          (floatLiteral negative ds fraction)
    | _ => (Number.Binary64.exponent? rest).map (floatLiteral negative ds [])

/-- The characters a number literal is made of. -/
def isNumberChar (c : Char) : Bool :=
  c.isDigit || c == '-' || c == '+' || c == '.' || c == 'e' || c == 'E'

/-! ## Strings -/

/-- The part of a string literal that has been read: its characters from the last to the first,
the first half of a surrogate pair that waits for the second, and whether a half stood alone. -/
structure Spelling where
  before : List Char
  high : Option Nat
  broken : Bool

namespace Spelling

def empty : Spelling := ⟨[], none, false⟩

def push (s : Spelling) (c : Char) : Spelling :=
  ⟨c :: s.before, none, s.broken || s.high.isSome⟩

/-- Adds the UTF-16 unit of a `\u` escape. -/
def pushUnit (s : Spelling) (unit : Nat) : Spelling :=
  let low := 0xdc00 ≤ unit && unit < 0xe000
  match s.high with
  | some high =>
    if low then
      let c := Char.ofNat (0x10000 + (high - 0xd800) * 0x400 + (unit - 0xdc00))
      ⟨c :: s.before, none, s.broken⟩
    else ⟨s.before, none, true⟩
  | none =>
    if low then ⟨s.before, none, true⟩
    else if 0xd800 ≤ unit && unit < 0xdc00 then ⟨s.before, some unit, s.broken⟩
    else s.push (Char.ofNat unit)

/-- The text, unless half a surrogate pair stands in it. -/
def text (s : Spelling) : Option String :=
  if s.broken || s.high.isSome then none else some (String.ofList s.before.reverse)

end Spelling

/-- The value of a hexadecimal digit. -/
def hexValue? (c : Char) : Option Nat :=
  let n := c.toNat
  if c.isDigit then some (n - 0x30)
  else if 0x61 ≤ n && n ≤ 0x66 then some (n - 0x61 + 10)
  else if 0x41 ≤ n && n ≤ 0x46 then some (n - 0x41 + 10)
  else none

/-- What the letter after a backslash stands for. -/
def unescape? (c : Char) : Option Char :=
  if c = '\x22' ∨ c = '\\' ∨ c = '/' then some c
  else if c = 'b' then some '\x08'
  else if c = 'f' then some '\x0c'
  else if c = 'n' then some '\n'
  else if c = 'r' then some '\r'
  else if c = 't' then some '\t'
  else none

/-! ## Characters to tokens -/

/-- What has been seen of a token that is not complete. -/
inductive Mode where
  | between
  | word (before : List Char)
  | number (before : List Char)
  | string (spelling : Spelling)
  | escape (spelling : Spelling)
  | hex (spelling : Spelling) (count value : Nat)

namespace Mode

def wordToken? (cs : List Char) : Option Token :=
  if cs = "null".toList then some (.scalar .null)
  else if cs = "true".toList then some (.scalar (.bool true))
  else if cs = "false".toList then some (.scalar (.bool false))
  else none

/-- A character that does not belong to a token before it. -/
def begin? (c : Char) : Option (Mode × List Token) :=
  if c = ' ' ∨ c = '\t' ∨ c = '\n' ∨ c = '\r' then some (.between, [])
  else if c = '[' then some (.between, [.openArray])
  else if c = ']' then some (.between, [.closeArray])
  else if c = '\x7b' then some (.between, [.openObject])
  else if c = '\x7d' then some (.between, [.closeObject])
  else if c = ',' then some (.between, [.comma])
  else if c = ':' then some (.between, [.colon])
  else if c = '\x22' then some (.string .empty, [])
  else if c.isDigit ∨ c = '-' then some (.number [c], [])
  else if c.isLower then some (.word [c], [])
  else none

/-- One more character. -/
def feed (m : Mode) (c : Char) : Option (Mode × List Token) :=
  match m with
  | .between => begin? c
  | .word before =>
    if c.isLower then some (.word (c :: before), [])
    else do
      let token ← wordToken? before.reverse
      let (next, tokens) ← begin? c
      return (next, token :: tokens)
  | .number before =>
    if isNumberChar c then some (.number (c :: before), [])
    else do
      let number ← numberLiteral? before.reverse
      let (next, tokens) ← begin? c
      return (next, .scalar number :: tokens)
  | .string s =>
    if c = '\x22' then some (.between, [.string s.text])
    else if c = '\\' then some (.escape s, [])
    else if c.toNat < 0x20 then none
    else some (.string (s.push c), [])
  | .escape s =>
    if c = 'u' then some (.hex s 0 0, [])
    else (unescape? c).map fun d => (.string (s.push d), [])
  | .hex s count value =>
    (hexValue? c).map fun d =>
      if count = 3 then (.string (s.pushUnit (value * 16 + d)), [])
      else (.hex s (count + 1) (value * 16 + d), [])

/-- The token that the end of the text completes. -/
def finish? : Mode → Option (List Token)
  | .between => some []
  | .word before => (wordToken? before.reverse).map ([·])
  | .number before => (numberLiteral? before.reverse).map ([.scalar ·])
  | _ => none

end Mode
end BoundSql.Json
