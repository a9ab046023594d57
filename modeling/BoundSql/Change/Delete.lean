import BoundSql.Select.Document
import BoundSql.Select.Build
import BoundSql.Select.Sql

/-!
# Deletions

A deletion removes the rows that its filter selects, up to a limit, or empties the whole table
when it truncates: filter and limit then do not count. The offset of its limits never counts.
-/
namespace BoundSql

/-- Rows to be removed from a table. -/
structure Delete where
  table : Option String
  schema : Option String
  tableAlias : Option String
  filter : Filter
  limits : Limits
  truncate : Bool

namespace Delete

def empty : Delete :=
  { table := none
    schema := none
    tableAlias := none
    filter := .empty
    limits := .none
    truncate := false }

def ofTable (table : String) : Delete := { empty with table := some table }

/-- The SQL of a deletion. A truncated table has no alias. -/
def sql (d : Dialect) (q : Delete) : Except Error Fragment := do
  let target ← Target.resolve q.table q.schema q.tableAlias
  if q.truncate then return .ofText ("TRUNCATE TABLE " ++ target.name d)
  let s := target.scope d
  return .ofText ("DELETE FROM " ++ target.nameAliased d) ++ (← q.filter.clause s) ++
    q.limits.limitClause s

/-! ## Building -/

/-- A change to a deletion. -/
inductive Edit where
  | schema (name : String)
  | tableAlias (name : String)
  | take (count : UInt64)
  | truncate
  | filter (edit : Filter.Edit)

def edit (q : Delete) : Edit → Delete
  | .schema name => { q with schema := some name }
  | .tableAlias name => { q with tableAlias := some name }
  | .take count => { q with limits := { q.limits with limit := count } }
  | .truncate => { q with truncate := true }
  | .filter e => { q with filter := q.filter.edit e }

/-- The deletion that edits make from another. -/
def build (q : Delete) (edits : List Edit) : Delete := edits.foldl edit q

/-! ## Documents -/

def toJson (q : Delete) : Json :=
  .object
    [("table", .ofString? q.table), ("schema", .ofString? q.schema),
      ("table_alias", .ofString? q.tableAlias), ("where", q.filter.toJson),
      ("limits", q.limits.toJson), ("truncate", .bool q.truncate)]

def ofJson? (j : Json) : Option Delete :=
  match j.fields? ["table", "schema", "table_alias", "where", "limits", "truncate"] with
  | some [table, schema, tableAlias, filter, limits, truncate] => do
    return {
      table := ← Json.optional Json.string? table
      schema := ← Json.optional Json.string? schema
      tableAlias := ← Json.optional Json.string? tableAlias
      filter := ← Json.defaulted .empty Filter.ofJson? filter
      limits := ← Json.defaulted .none Limits.ofJson? limits
      truncate := ← Json.defaulted false Json.bool? truncate }
  | _ => none

end Delete
end BoundSql
