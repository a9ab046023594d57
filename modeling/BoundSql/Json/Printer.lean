import BoundSql.Json.Basic
import BoundSql.Number.Text

/-!
# JSON texts

The compact text has no space outside strings. The indented text puts every item and member on
a line of its own, two spaces deeper than its container; an empty container stays on one line.
Strings escape the quotation mark, the backslash and the control characters below U+0020, and
nothing else.
-/
namespace BoundSql.Json

/-- One hexadecimal digit in lower case. -/
def hexDigit (n : Nat) : Char := Nat.digitChar n

/-- One character of a string literal. -/
def escapeChar (c : Char) : List Char :=
  if c = '\x22' then ['\\', '\x22']
  else if c = '\\' then ['\\', '\\']
  else if 0x20 ≤ c.toNat then [c]
  else if c = '\x08' then ['\\', 'b']
  else if c = '\t' then ['\\', 't']
  else if c = '\n' then ['\\', 'n']
  else if c = '\x0c' then ['\\', 'f']
  else if c = '\r' then ['\\', 'r']
  else ['\\', 'u', '0', '0', hexDigit (c.toNat / 16), hexDigit (c.toNat % 16)]

/-- A string literal with its quotation marks. -/
def stringChars (s : String) : List Char :=
  '\x22' :: (s.toList.flatMap escapeChar ++ ['\x22'])

def wholeChars (n : Whole) : List Char := (Number.intText n.val).toList

def floatChars (x : Number.Binary64) : List Char :=
  if x.isFinite then (Number.FloatFormat.document.text x).toList else "null".toList

mutual

/-- The text without white space. -/
def chars : Json → List Char
  | .null => "null".toList
  | .bool true => "true".toList
  | .bool false => "false".toList
  | .whole n => wholeChars n
  | .float x => floatChars x
  | .string s => stringChars s
  | .array items => '[' :: (itemChars items ++ [']'])
  | .object members => '\x7b' :: (memberChars members ++ ['\x7d'])
  | .unreadable => "null".toList

/-- Items with commas between them. -/
def itemChars : List Json → List Char
  | [] => []
  | [j] => j.chars
  | j :: rest => j.chars ++ ',' :: itemChars rest

/-- Members with commas between them. -/
def memberChars : List (String × Json) → List Char
  | [] => []
  | [(name, j)] => stringChars name ++ ':' :: j.chars
  | (name, j) :: rest => stringChars name ++ ':' :: (j.chars ++ ',' :: memberChars rest)

end

/-- The compact text. -/
def compact (j : Json) : String := String.ofList j.chars

/-- A new line at a depth of indentation. -/
def newLine (depth : Nat) : List Char := '\n' :: List.replicate (2 * depth) ' '

mutual

/-- The indented text of a value that begins at a depth. -/
def prettyChars (depth : Nat) : Json → List Char
  | .array [] => "[]".toList
  | .array items => '[' :: (prettyItems (depth + 1) items ++ newLine depth ++ [']'])
  | .object [] => ['\x7b', '\x7d']
  | .object members =>
    '\x7b' :: (prettyMembers (depth + 1) members ++ newLine depth ++ ['\x7d'])
  | j => j.chars

/-- Items, each on its own line. -/
def prettyItems (depth : Nat) : List Json → List Char
  | [] => []
  | [j] => newLine depth ++ j.prettyChars depth
  | j :: rest => newLine depth ++ j.prettyChars depth ++ ',' :: prettyItems depth rest

/-- Members, each on its own line. -/
def prettyMembers (depth : Nat) : List (String × Json) → List Char
  | [] => []
  | [(name, j)] => newLine depth ++ stringChars name ++ ':' :: ' ' :: j.prettyChars depth
  | (name, j) :: rest =>
    newLine depth ++ stringChars name ++ ':' :: ' ' :: j.prettyChars depth ++
      ',' :: prettyMembers depth rest

end

/-- The indented text. -/
def pretty (j : Json) : String := String.ofList (j.prettyChars 0)

end BoundSql.Json
