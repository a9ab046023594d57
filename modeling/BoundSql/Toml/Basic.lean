/-!
# Settings files as tables

A settings file is a table of tables. A table is opened by a header, implied by the header of a
table inside it, or made by a dotted key; the three differ in what may still be added to them.
A header completes an implied table but no other, and a dotted key reaches only tables that no
header has opened. A table or array that is written as a value is closed.
-/
namespace BoundSql.Toml

/-- How a table came about. -/
inductive Form where
  | opened
  | implied
  | dotted
deriving DecidableEq

mutual

/-- A value of a settings file. -/
inductive Node where
  | string (text : String)
  | bool (value : Bool)
  /-- A number, a date or a time. -/
  | measure
  | array (items : List Node)
  /-- A table written as a value. -/
  | inline (table : Table)
  | table (table : Table)
  /-- An array of tables, each with its own header. -/
  | tables (newest : Table) (older : List Table)

/-- A table with its entries in order of appearance. -/
structure Table where
  form : Form
  entries : List (String × Node)

end

namespace Table

/-- A table with a header and nothing under it. -/
def empty : Table := ⟨.opened, []⟩

def get? (t : Table) (key : String) : Option Node := t.entries.lookup key

/-- Changes the entry of a key, or makes a new one. -/
def alter (t : Table) (key : String) (change : Option Node → Option Node) : Option Table := do
  match t.get? key with
  | some old =>
    let new ← change (some old)
    return { t with entries := t.entries.map fun e => if e.1 = key then (key, new) else e }
  | none => return { t with entries := t.entries ++ [(key, ← change none)] }

/-- Changes the table at the end of a path. Tables missing on the way are made, by the header or
the dotted key that the path belongs to; of an array of tables the newest is meant. -/
def update (byKey : Bool) (change : Table → Option Table) : List String → Table → Option Table
  | [], t => change t
  | key :: path, t =>
    let into (inner : Table) : Option Table := update byKey change path inner
    t.alter key fun
      | none => (into ⟨if byKey then .dotted else .implied, []⟩).map .table
      | some (.table inner) =>
        if byKey && inner.form = .opened then none else (into inner).map .table
      | some (.tables newest older) => (into newest).map fun t => .tables t older
      | some _ => none

/-- Adds a value under a key that is not there yet. Behind dots, the table must be one that dots
have made. -/
def insert (path : List String) (key : String) (value : Node) : Table → Option Table :=
  update true (fun t =>
    if path ≠ [] ∧ t.form ≠ .dotted then none
    else t.alter key fun
      | none => some value
      | some _ => none) path

/-- Opens a table by its header: a new one, or an implied one. -/
def openTable (path : List String) (key : String) : Table → Option Table :=
  update false (fun t => t.alter key fun
    | none => some (.table empty)
    | some (.table inner) =>
      if inner.form = .implied then some (.table { inner with form := .opened }) else none
    | some _ => none) path

/-- Adds a table to an array of tables by its header. -/
def openItem (path : List String) (key : String) : Table → Option Table :=
  update false (fun t => t.alter key fun
    | none => some (.tables empty [])
    | some (.tables newest older) => some (.tables empty (newest :: older))
    | some _ => none) path

end Table
end BoundSql.Toml
