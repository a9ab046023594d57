import BoundSql.Toml.Basic
import BoundSql.Toml.Scalar

/-!
# Reading settings files

A file is a list of lines: headers, entries, comments. Values may nest arrays and tables in one
another less than 80 deep, and a dotted key has fewer than 80 parts.
-/
namespace BoundSql.Toml

open Text (Reader expect)

/-- How deep values may nest and how many parts a key may have, less than. -/
def limit : Nat := 80

def skipSpaces (cs : List Char) : List Char := cs.dropWhile fun c => c = ' ' || c = '\t'

/-- The rest after a comment, if one begins here. -/
def skipComment : List Char → List Char
  | '#' :: rest => rest.dropWhile isPrintable
  | cs => cs

/-- The rest after white space, line ends and comments between the items of an array. -/
def skipBlank (inComment : Bool) : List Char → List Char
  | [] => []
  | c :: rest =>
    if inComment && isPrintable c then skipBlank true rest
    else if c = ' ' ∨ c = '\t' ∨ c = '\n' then skipBlank false rest
    else if c = '#' then skipBlank true rest
    else c :: rest

/-- The rest after the end of a line, with white space and a comment before it. -/
def endLine? (cs : List Char) : Option (List Char) :=
  match skipComment (skipSpaces cs) with
  | [] => some []
  | '\n' :: rest => some rest
  | _ => none

/-! ## Keys -/

def isBareKeyChar (c : Char) : Bool := c.isAlphanum || c = '-' || c = '_'

/-- One part of a key, bare or quoted. -/
def keyPart : Reader String := fun cs =>
  match cs with
  | [] => none
  | c :: _ =>
    if c = '\x22' ∨ c = '\x27' then lineString c cs
    else
      let bare := cs.takeWhile isBareKeyChar
      if bare = [] then none else some (String.ofList bare, cs.dropWhile isBareKeyChar)

/-- The parts of a dotted key, with white space around each, in at most so many parts. -/
def keyParts : Nat → Reader (List String)
  | 0, _ => none
  | room + 1, cs => do
    let (part, cs) ← keyPart (skipSpaces cs)
    match skipSpaces cs with
    | '.' :: rest =>
      let (parts, rest) ← keyParts room rest
      return (part :: parts, rest)
    | rest => return ([part], rest)

/-- A key: the path to its table and its own name. -/
def key : Reader (List String × String) := fun cs => do
  let (parts, rest) ← keyParts (limit - 1) cs
  let name ← parts.getLast?
  return ((parts.dropLast, name), rest)

/-! ## Values -/

mutual

/-- Reads a value that stands inside `depth` others. -/
def readValue : Nat → Nat → Reader Node
  | 0, _, _ => none
  | fuel + 1, depth, cs =>
    match cs with
    | '[' :: rest =>
      if depth + 1 < limit then
        (readItems fuel (depth + 1) rest).map fun (items, rest) => (.array items, rest)
      else none
    | '\x7b' :: rest =>
      if depth + 1 < limit then
        match skipSpaces rest with
        | '\x7d' :: rest => some (.inline .empty, rest)
        | rest => (readMembers fuel (depth + 1) .empty rest).map fun (t, rest) => (.inline t, rest)
      else none
    | 't' :: 'r' :: 'u' :: 'e' :: rest => some (.bool true, rest)
    | 'f' :: 'a' :: 'l' :: 's' :: 'e' :: rest => some (.bool false, rest)
    | c :: _ =>
      if c = '\x22' ∨ c = '\x27' then (string c cs).map fun (s, rest) => (.string s, rest)
      else (skipMeasure? cs).map fun rest => (.measure, rest)
    | [] => none

/-- The items of an array and its closing bracket; a comma may follow the last item. -/
def readItems : Nat → Nat → Reader (List Node)
  | 0, _, _ => none
  | fuel + 1, depth, cs =>
    match skipBlank false cs with
    | ']' :: rest => some ([], rest)
    | cs => do
      let (item, cs) ← readValue fuel depth cs
      match skipBlank false cs with
      | ',' :: rest =>
        let (items, rest) ← readItems fuel depth rest
        return (item :: items, rest)
      | ']' :: rest => return ([item], rest)
      | _ => none

/-- The entries of a table on one line and its closing brace. -/
def readMembers : Nat → Nat → Table → Reader Table
  | 0, _, _, _ => none
  | fuel + 1, depth, t, cs => do
    let ((path, name), cs) ← key cs
    let cs ← expect '=' cs
    let (value, cs) ← readValue fuel depth (skipSpaces cs)
    let t ← t.insert path name value
    match skipSpaces cs with
    | ',' :: rest => readMembers fuel depth t rest
    | '\x7d' :: rest => return (t, rest)
    | _ => none

end

/-! ## Lines -/

/-- What has been read: the table of the whole file, and the path of the last header. -/
structure Document where
  root : Table
  header : List String

namespace Document

def empty : Document := ⟨.empty, []⟩

/-- A header with the path and the name of its table. -/
def readHeader (d : Document) (cs : List Char) : Option (Document × List Char) :=
  match cs with
  | '[' :: '[' :: rest => do
    let ((path, name), cs) ← key rest
    let cs ← expect ']' cs
    let cs ← expect ']' cs
    let cs ← endLine? cs
    return (⟨← d.root.openItem path name, path ++ [name]⟩, cs)
  | '[' :: rest => do
    let ((path, name), cs) ← key rest
    let cs ← expect ']' cs
    let cs ← endLine? cs
    return (⟨← d.root.openTable path name, path ++ [name]⟩, cs)
  | _ => none

/-- An entry of the table of the last header. -/
def readEntry (d : Document) (cs : List Char) : Option (Document × List Char) := do
  let ((path, name), cs) ← key cs
  let cs ← expect '=' cs
  let (value, cs) ← readValue (2 * cs.length + 2) 0 (skipSpaces cs)
  let cs ← endLine? cs
  return ({ d with root := ← d.root.update false (Table.insert path name value) d.header }, cs)

/-- One line. -/
def readLine (d : Document) (cs : List Char) : Option (Document × List Char) :=
  let cs := skipSpaces cs
  match cs.head? with
  | none => some (d, [])
  | some c =>
    if c = '#' ∨ c = '\n' then (endLine? cs).map (d, ·)
    else if c = '[' then d.readHeader cs
    else d.readEntry cs

/-- All lines; every line takes some text away. -/
def readLines (d : Document) (cs : List Char) : Option Document :=
  if cs = [] then some d
  else
    match d.readLine cs with
    | some (d, rest) => if rest.length < cs.length then readLines d rest else none
    | none => none
termination_by cs.length

end Document

/-- Line ends as single line feeds. -/
def unixLines : List Char → List Char
  | '\r' :: '\n' :: rest => '\n' :: unixLines rest
  | c :: rest => c :: unixLines rest
  | [] => []

/-- Reads a settings file; `none` if it is malformed. A byte order mark in front is passed over. -/
def parse? (text : String) : Option Table :=
  let cs := unixLines text.toList
  let cs := if cs.head? = some '\ufeff' then cs.drop 1 else cs
  (Document.empty.readLines cs).map (·.root)

end BoundSql.Toml
