import BoundSql.Command.Content
import BoundSql.Toml.Reader

/-!
# Settings

What a user may settle in a file: the format of the output, whether it is coloured, and whether
the program is talkative. Entries with other names are passed over; a missing file leaves the
defaults.
-/
namespace BoundSql

/-- How a compiled statement is printed. -/
inductive OutputFormat where
  | text
  | json
deriving DecidableEq

namespace OutputFormat

def name : OutputFormat → String
  | .text => "text"
  | .json => "json"

/-- The format with a given name, in lower case. -/
def ofName? (s : String) : Option OutputFormat :=
  if s = "text" then some .text else if s = "json" then some .json else none

/-- An array or table without content. -/
def isVacant : Toml.Node → Bool
  | .array items => items.isEmpty
  | .inline t | .table t => t.entries.isEmpty
  | _ => false

/-- The name of a format, or a table whose only entry has that name and nothing in it. -/
def ofNode? : Toml.Node → Option OutputFormat
  | .string s => ofName? s
  | .inline t | .table t =>
    match t.entries with
    | [(name, node)] => if isVacant node then ofName? name else none
    | _ => none
  | _ => none

end OutputFormat

/-- The settings of the program. -/
structure Settings where
  format : OutputFormat
  color : Bool
  verbose : Bool
deriving DecidableEq

namespace Settings

def standard : Settings := { format := .text, color := true, verbose := false }

def bool? : Toml.Node → Option Bool
  | .bool b => some b
  | _ => none

/-- The setting of an entry, or its default where the entry is missing. -/
def entry {α : Type} (t : Toml.Table) (name : String) (decode : Toml.Node → Option α)
    (default : α) : Option α :=
  match t.get? name with
  | some node => decode node
  | none => some default

/-- Reads settings from the text of a file. -/
def parse? (text : String) : Option Settings := do
  let t ← Toml.parse? text
  return {
    format := ← entry t "format" OutputFormat.ofNode? standard.format
    color := ← entry t "color" bool? standard.color
    verbose := ← entry t "verbose" bool? standard.verbose }

/-- Why there are no settings. -/
inductive Fault where
  | unreadable
  | malformed
deriving DecidableEq

/-- The settings of a file; there is nothing to settle in one that is missing. -/
def load : Content → Except Fault Settings
  | .missing | .blocked => .ok standard
  | .denied | .directory | .binary => .error .unreadable
  | .text t =>
    match parse? t with
    | some settings => .ok settings
    | none => .error .malformed

/-! ## Building -/

/-- A change to the settings. -/
inductive Edit where
  | format (format : OutputFormat)
  | color (color : Bool)
  | verbose (verbose : Bool)

def edit (s : Settings) : Edit → Settings
  | .format format => { s with format }
  | .color color => { s with color }
  | .verbose verbose => { s with verbose }

/-- The settings that edits make from the standard ones. -/
def build (edits : List Edit) : Settings := edits.foldl edit standard

end Settings
end BoundSql
