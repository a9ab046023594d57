import BoundSql.Sql.Fragment
import BoundSql.Sql.Naming

/-!
# Indexes

An index has a name and covers columns of one table.
-/
namespace BoundSql

/-- An index to be created. -/
structure CreateIndex where
  table : Option String
  schema : Option String
  name : String
  unique : Bool
  columns : List String
deriving DecidableEq

namespace CreateIndex

def empty : CreateIndex :=
  { table := none, schema := none, name := "", unique := false, columns := [] }

def ofTable (table : String) : CreateIndex := { empty with table := some table }

/-- The SQL that creates an index. -/
def sql (d : Dialect) (q : CreateIndex) : Except Error Fragment := do
  let target ← Target.resolve q.table q.schema none
  if Text.isBlank q.name then throw .blankIndex
  if q.columns.isEmpty then throw .noIndexColumns
  return .ofText ("CREATE " ++ (if q.unique then "UNIQUE " else "") ++ "INDEX " ++ d.quote q.name ++
    " ON " ++ target.name d ++ " (" ++ String.intercalate "," (q.columns.map d.quote) ++ ")")

/-! ## Building -/

/-- A change to an index. -/
inductive Edit where
  | name (name : String)
  | unique
  | columns (names : List String)

def edit (q : CreateIndex) : Edit → CreateIndex
  | .name name => { q with name }
  | .unique => { q with unique := true }
  | .columns names => { q with columns := names }

/-- The index that edits make from another. -/
def build (q : CreateIndex) (edits : List Edit) : CreateIndex := edits.foldl edit q

/-! ## Documents -/

def toJson (q : CreateIndex) : Json :=
  .object
    [("table", .ofString? q.table), ("schema", .ofString? q.schema), ("name", .string q.name),
      ("unique", .bool q.unique), ("columns", .ofList .string q.columns)]

def ofJson? (j : Json) : Option CreateIndex :=
  match j.fields? ["table", "schema", "name", "unique", "columns"] with
  | some [table, schema, name, unique, columns] => do
    return {
      table := ← Json.optional Json.string? table
      schema := ← Json.optional Json.string? schema
      name := ← Json.defaulted "" Json.string? name
      unique := ← Json.defaulted false Json.bool? unique
      columns := ← Json.defaulted [] (Json.list? Json.string?) columns }
  | _ => none

end CreateIndex
end BoundSql
