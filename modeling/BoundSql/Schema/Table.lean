import BoundSql.Schema.Column
import BoundSql.Schema.ForeignKey

/-!
# Tables

A table is created with its columns, then the primary key over all columns marked for it, then
the foreign keys.
-/
namespace BoundSql

/-- A table to be created. -/
structure CreateTable where
  table : Option String
  schema : Option String
  columns : List Column
  foreignKeys : List ForeignKey

namespace CreateTable

def empty : CreateTable := { table := none, schema := none, columns := [], foreignKeys := [] }

def ofTable (table : String) : CreateTable := { empty with table := some table }

/-- The primary key over the columns marked for it, if there are any. -/
def primaryKeyText (d : Dialect) (columns : List Column) : List String :=
  match columns.filter Column.primaryKey with
  | [] => []
  | marked =>
    ["PRIMARY KEY (" ++ String.intercalate "," (marked.map fun c => d.quote c.name) ++ ")"]

/-- Columns, and the keys set off from them by a comma between spaces. -/
def body (d : Dialect) (columns : List Column) (foreignKeys : List ForeignKey) : String :=
  let definitions := String.intercalate "," (columns.map (Column.text d))
  match primaryKeyText d columns ++ foreignKeys.map (ForeignKey.text d) with
  | [] => definitions
  | keys => definitions ++ " , " ++ String.intercalate "," keys

/-- The SQL that creates a table. All columns are checked before the first foreign key is. -/
def sql (d : Dialect) (q : CreateTable) : Except Error Fragment := do
  let target ← Target.resolve q.table q.schema none
  if q.columns.isEmpty then throw .noTableColumns
  q.columns.forM Column.check
  q.foreignKeys.forM ForeignKey.check
  return .ofText ("CREATE TABLE " ++ target.name d ++ " (" ++ body d q.columns q.foreignKeys ++ ")")

/-! ## Building -/

/-- A change to a table. -/
inductive Edit where
  | schema (name : String)
  | column (column : Column)
  | foreignKey (key : ForeignKey)

def edit (q : CreateTable) : Edit → CreateTable
  | .schema name => { q with schema := some name }
  | .column c => { q with columns := q.columns ++ [c] }
  | .foreignKey key => { q with foreignKeys := q.foreignKeys ++ [key] }

/-- The table that edits make from another. -/
def build (q : CreateTable) (edits : List Edit) : CreateTable := edits.foldl edit q

/-! ## Documents -/

def toJson (q : CreateTable) : Json :=
  .object
    [("table", .ofString? q.table), ("schema", .ofString? q.schema),
      ("columns", .ofList Column.toJson q.columns),
      ("foreign_keys", .ofList ForeignKey.toJson q.foreignKeys)]

def ofJson? (j : Json) : Option CreateTable :=
  match j.fields? ["table", "schema", "columns", "foreign_keys"] with
  | some [table, schema, columns, foreignKeys] => do
    return {
      table := ← Json.optional Json.string? table
      schema := ← Json.optional Json.string? schema
      columns := ← Json.defaulted [] (Json.list? Column.ofJson?) columns
      foreignKeys := ← Json.defaulted [] (Json.list? ForeignKey.ofJson?) foreignKeys }
  | _ => none

end CreateTable
end BoundSql
