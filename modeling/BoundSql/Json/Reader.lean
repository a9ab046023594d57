import BoundSql.Json.Token

/-!
# Reading JSON

The reader keeps the containers that are open around the next token, innermost first, and is
driven by one token at a time. A container that stands inside 127 others is read by the same
rules and then counts as unreadable.
-/
namespace BoundSql.Json

/-- An open container: what stands in it before the value being read. The names of members are
missing where they cannot be read. -/
inductive Frame where
  | items (before : List Json)
  | members (before : List (Option String × Json)) (name : Option String)

/-- What may come next. -/
inductive Phase where
  | value
  | firstItem
  | name (before : List (Option String × Json)) (first : Bool)
  | colon (before : List (Option String × Json)) (name : Option String)
  | after (value : Json)

/-- A document read up to some token. -/
structure Reader where
  phase : Phase
  frames : List Frame

namespace Reader

def start : Reader := ⟨.value, []⟩

/-- How many containers a readable container may stand in, less than. -/
def depthLimit : Nat := 127

/-- A container has been closed. -/
def close (container : Json) (frames : List Frame) : Reader :=
  ⟨.after (if frames.length < depthLimit then container else .unreadable), frames⟩

/-- The object with these members, given from the last to the first. -/
def objectOf (before : List (Option String × Json)) : Json :=
  match before.reverse.mapM fun (name, j) => name.map (·, j) with
  | some members => .object members
  | none => .unreadable

/-- A token where a value must begin. -/
def stepValue (frames : List Frame) : Token → Option Reader
  | .scalar j => some ⟨.after j, frames⟩
  | .string s => some ⟨.after ((s.map Json.string).getD .unreadable), frames⟩
  | .openArray => some ⟨.firstItem, frames⟩
  | .openObject => some ⟨.name [] true, frames⟩
  | _ => none

/-- A token after a complete value. -/
def stepAfter (j : Json) : List Frame → Token → Option Reader
  | .items before :: frames, .comma => some ⟨.value, .items (j :: before) :: frames⟩
  | .items before :: frames, .closeArray => some (close (.array (j :: before).reverse) frames)
  | .members before name :: frames, .comma => some ⟨.name ((name, j) :: before) false, frames⟩
  | .members before name :: frames, .closeObject =>
    some (close (objectOf ((name, j) :: before)) frames)
  | _, _ => none

/-- One more token. -/
def step (r : Reader) (t : Token) : Option Reader :=
  match r.phase, t with
  | .value, t => stepValue r.frames t
  | .firstItem, .closeArray => some (close (.array []) r.frames)
  | .firstItem, t => stepValue (.items [] :: r.frames) t
  | .name _ true, .closeObject => some (close (.object []) r.frames)
  | .name before _, .string s => some ⟨.colon before s, r.frames⟩
  | .colon before name, .colon => some ⟨.value, .members before name :: r.frames⟩
  | .after j, t => stepAfter j r.frames t
  | _, _ => none

/-- The document, once every container is closed. -/
def result? (r : Reader) : Option Json :=
  match r with
  | ⟨.after j, []⟩ => some j
  | _ => none

end Reader

/-- A document read up to some character. -/
structure Cursor where
  mode : Mode
  reader : Reader

namespace Cursor

def start : Cursor := ⟨.between, .start⟩

/-- One more character. -/
def feed (s : Cursor) (c : Char) : Option Cursor := do
  let (mode, tokens) ← s.mode.feed c
  let reader ← tokens.foldlM Reader.step s.reader
  return ⟨mode, reader⟩

/-- The document, at the end of the text. -/
def finish? (s : Cursor) : Option Json := do
  let tokens ← s.mode.finish?
  let reader ← tokens.foldlM Reader.step s.reader
  reader.result?

/-- All of a text. -/
def run (s : Cursor) (cs : List Char) : Option Cursor := cs.foldlM feed s

theorem run_append (s : Cursor) (cs ds : List Char) :
    s.run (cs ++ ds) = s.run cs >>= fun t => t.run ds := by
  simp [run, List.foldlM_append]

end Cursor

/-- Reads a document; `none` if the text is not JSON. -/
def parse? (text : String) : Option Json := do
  let cursor ← Cursor.start.run text.toList
  cursor.finish?

end BoundSql.Json
