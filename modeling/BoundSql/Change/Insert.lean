import BoundSql.Select.Clause
import BoundSql.Select.Document

/-!
# Insertions

The rows of an insertion may name different columns. The statement lists every column that some
row names, in the order of first appearance, and a row that does not name a column leaves it to
its default. Of two fields with one name in a row the first counts.
-/
namespace BoundSql

/-- What a row has in a column. -/
inductive Cell where
  | default
  | value (value : Value)

/-- The fields of a row in the order in which they were given. -/
structure Row where
  fields : List (String × Cell)

/-- What is renewed in a row that is already there. -/
inductive Refresh where
  /-- The column takes what the first inserted row has in it. -/
  | column (name : String)
  | raw (sql : RawSql)

/-- Rows to be added to a table. -/
structure Insert where
  table : Option String
  schema : Option String
  rows : List Row
  ignore : Bool
  onDuplicate : Option (List Refresh)

namespace Row

def empty : Row := ⟨[]⟩

/-- Adds a field at the end. -/
def set (r : Row) (column : String) (cell : Cell) : Row := ⟨r.fields ++ [(column, cell)]⟩

/-- What the row has in a column; a column it does not name has its default. -/
def cell (r : Row) (column : String) : Cell := (r.fields.lookup column).getD .default

end Row

namespace Cell

/-- A placeholder, or `DEFAULT`. -/
def sql (s : Scope) : Cell → Fragment
  | .default => .ofText "DEFAULT"
  | .value v => .bound s.placeholder [v]

end Cell

namespace Insert

def empty : Insert :=
  { table := none, schema := none, rows := [], ignore := false, onDuplicate := none }

def ofTable (table : String) : Insert := { empty with table := some table }

/-- Every column that some row names, in the order of first appearance. -/
def columnNames (q : Insert) : List String :=
  (q.rows.flatMap fun r => r.fields.map (·.1)).eraseDups

/-- `(?,DEFAULT)`, one cell for each column. -/
def tupleSql (s : Scope) (columns : List String) (r : Row) : Fragment :=
  .ofText "(" ++ .joined "," (columns.map fun c => (r.cell c).sql s) ++ .ofText ")"

/-- `column = ?` or `column = DEFAULT`; only a column that is inserted can be renewed. -/
def refreshSql (s : Scope) (columns : List String) (first : Row) :
    Refresh → Except Error Fragment
  | .column c =>
    if columns.contains c then .ok (.ofText (s.quote c ++ " = ") ++ (first.cell c).sql s)
    else .error (.notInserted c)
  | .raw r => .ok r.sql

/-- ` ON DUPLICATE KEY UPDATE` and what is renewed, if anything is. -/
def refreshClause (s : Scope) (columns : List String) (first : Row) (items : List Refresh) :
    Except Error Fragment := do
  return (Fragment.joined "," (← items.mapM (refreshSql s columns first))).surrounded
    " ON DUPLICATE KEY UPDATE " ""

/-- The SQL of an insertion. -/
def sql (d : Dialect) (q : Insert) : Except Error Fragment := do
  let target ← Target.resolve q.table q.schema none
  match q.rows with
  | [] => throw .noRows
  | first :: _ =>
    let columns := q.columnNames
    if columns.isEmpty then throw .noInsertedColumns
    let s := target.scope d
    let opening := "INSERT " ++ (if q.ignore then "IGNORE " else "") ++ "INTO " ++ target.name d ++
      " (" ++ String.intercalate "," (columns.map s.quote) ++ ") VALUES "
    let refresh ← refreshClause s columns first (q.onDuplicate.getD [])
    return .ofText opening ++ .joined "," (q.rows.map (tupleSql s columns)) ++ refresh

/-! ## Building -/

/-- A change to an insertion. -/
inductive Edit where
  | schema (name : String)
  | addRows (rows : List Row)
  | ignore
  | onDuplicate (items : List Refresh)

def edit (q : Insert) : Edit → Insert
  | .schema name => { q with schema := some name }
  | .addRows rows => { q with rows := q.rows ++ rows }
  | .ignore => { q with ignore := true }
  | .onDuplicate items => { q with onDuplicate := some items }

/-- The insertion that edits make from another. -/
def build (q : Insert) (edits : List Edit) : Insert := edits.foldl edit q

end Insert

/-! ## Documents -/

namespace Cell

def toJson : Cell → Json
  | .default => .string "default"
  | .value v => .object [("value", v.toJson)]

def ofJson? (j : Json) : Option Cell :=
  if j.tag? = some "default" then some .default
  else
    match j.variant? with
    | some ("value", part) => (Value.ofJson? part.val).map .value
    | _ => none

end Cell

namespace Row

def toJson (r : Row) : Json :=
  .object [("fields", .ofList (fun (c, cell) => .array [.string c, cell.toJson]) r.fields)]

def ofJson? (j : Json) : Option Row :=
  match j.fields? ["fields"] with
  | some [fields] =>
    (Json.required (Json.list? (Json.pair? Json.string? Cell.ofJson?)) fields).map Row.mk
  | _ => none

end Row

namespace Refresh

def toJson : Refresh → Json
  | .column c => .object [("column", .string c)]
  | .raw r => .object [("raw", r.toJson)]

def ofJson? (j : Json) : Option Refresh :=
  match j.variant? with
  | some ("column", part) => part.val.string?.map .column
  | some ("raw", part) => (RawSql.ofJson? part.val).map .raw
  | _ => none

def listToJson (items : List Refresh) : Json := .object [("columns", .ofList toJson items)]

def listOfJson? (j : Json) : Option (List Refresh) :=
  match j.fields? ["columns"] with
  | some [items] => Json.required (Json.list? ofJson?) items
  | _ => none

end Refresh

namespace Insert

def toJson (q : Insert) : Json :=
  .object
    [("table", .ofString? q.table), ("schema", .ofString? q.schema),
      ("rows", .ofList Row.toJson q.rows), ("ignore", .bool q.ignore),
      ("on_duplicate", .ofOption Refresh.listToJson q.onDuplicate)]

def ofJson? (j : Json) : Option Insert :=
  match j.fields? ["table", "schema", "rows", "ignore", "on_duplicate"] with
  | some [table, schema, rows, ignore, onDuplicate] => do
    return {
      table := ← Json.optional Json.string? table
      schema := ← Json.optional Json.string? schema
      rows := ← Json.defaulted [] (Json.list? Row.ofJson?) rows
      ignore := ← Json.defaulted false Json.bool? ignore
      onDuplicate := ← Json.optional Refresh.listOfJson? onDuplicate }
  | _ => none

end Insert
end BoundSql
