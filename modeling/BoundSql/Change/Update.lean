import BoundSql.Select.Document
import BoundSql.Select.Build
import BoundSql.Select.Sql

/-!
# Updates

An update assigns values to columns of the rows that its filter selects. Assignments keep the
order in which their columns were first set, and a column is set once: a later value takes the
place of an earlier one.
-/
namespace BoundSql

/-- New values for rows of a table. -/
structure Update where
  table : Option String
  schema : Option String
  tableAlias : Option String
  assignments : List (String × Value)
  filter : Filter

namespace Update

def empty : Update :=
  { table := none, schema := none, tableAlias := none, assignments := [], filter := .empty }

def ofTable (table : String) : Update := { empty with table := some table }

/-- `column = ?`. -/
def assignmentSql (s : Scope) : String × Value → Fragment
  | (column, value) => (Fragment.ofText (s.quote column ++ " = ")).pushBound s.placeholder value

/-- The SQL of an update. Columns that are assigned take no qualifier. -/
def sql (d : Dialect) (q : Update) : Except Error Fragment := do
  let target ← Target.resolve q.table q.schema q.tableAlias
  if q.assignments.isEmpty then throw .noAssignments
  let s := target.scope d
  return .ofText ("UPDATE " ++ target.nameAliased d ++ " SET ") ++
    .joined "," (q.assignments.map (assignmentSql s)) ++ (← q.filter.clause s)

/-! ## Building -/

/-- The assignments after one more. -/
def assign (column : String) (value : Value) : List (String × Value) → List (String × Value)
  | [] => [(column, value)]
  | (c, v) :: rest =>
    if c = column then (c, value) :: rest else (c, v) :: assign column value rest

/-- A change to an update. -/
inductive Edit where
  | schema (name : String)
  | tableAlias (name : String)
  | set (column : String) (value : Value)
  | filter (edit : Filter.Edit)

def edit (q : Update) : Edit → Update
  | .schema name => { q with schema := some name }
  | .tableAlias name => { q with tableAlias := some name }
  | .set column value => { q with assignments := assign column value q.assignments }
  | .filter e => { q with filter := q.filter.edit e }

/-- The update that edits make from another. -/
def build (q : Update) (edits : List Edit) : Update := edits.foldl edit q

/-! ## Documents -/

def toJson (q : Update) : Json :=
  .object
    [("table", .ofString? q.table), ("schema", .ofString? q.schema),
      ("table_alias", .ofString? q.tableAlias),
      ("values", .ofList (fun (c, v) => .array [.string c, v.toJson]) q.assignments),
      ("where", q.filter.toJson)]

def ofJson? (j : Json) : Option Update :=
  match j.fields? ["table", "schema", "table_alias", "values", "where"] with
  | some [table, schema, tableAlias, assignments, filter] => do
    return {
      table := ← Json.optional Json.string? table
      schema := ← Json.optional Json.string? schema
      tableAlias := ← Json.optional Json.string? tableAlias
      assignments := ← Json.defaulted [] (Json.list? (Json.pair? Json.string? Value.ofJson?))
        assignments
      filter := ← Json.defaulted .empty Filter.ofJson? filter }
  | _ => none

end Update
end BoundSql
