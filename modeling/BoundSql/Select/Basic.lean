import BoundSql.Sql.Fragment
import BoundSql.Sql.Naming

/-!
# Queries and expressions

An expression is a column of a select list or a predicate of a filter. Predicates may hold a
filter, in parentheses, or a query, under `EXISTS`; hence expressions, filters and queries are
defined together.
-/
namespace BoundSql

/-- SQL written out by the caller, with the values of its placeholders. -/
structure RawSql where
  text : String
  bindings : List Value

/-- A joined table. -/
inductive Join where
  /-- The joined table's key equals the key of the table before it. -/
  | table (kind : JoinKind) (table : String) (tableAlias : Option String)
      (primaryKey foreignKey : ColumnName)
  | raw (kind : JoinKind) (sql : RawSql)

/-- What rows are grouped by. -/
inductive Grouping where
  | column (column : ColumnName)
  | raw (sql : RawSql)

/-- How rows are sorted. -/
structure SortKey where
  column : String
  direction : Direction

/-- How many rows are returned and how many are skipped before them; zero sets no bound. -/
structure Limits where
  limit : UInt64
  offset : UInt64
deriving DecidableEq

def Limits.none : Limits := ⟨0, 0⟩

/-- A walk down a hierarchy that a table holds of itself: rows whose `recursiveKey` equals the
`anchorKey` of a row found before. -/
structure Recursion where
  recursiveKey : String
  anchorKey : String
deriving DecidableEq

mutual

/-- A column of a select list or a predicate. -/
inductive Expr where
  | raw (sql : RawSql)
  | column (column : ColumnName) (label : Option String)
  | aggregate (function : Aggregate) (column : ColumnName) (label : Option String)
  | rawColumn (sql : RawSql)
  | datePart (part : DatePart) (column : ColumnName) (label : Option String)
  | comparison (column : ColumnName) (op : Operator) (value : Value)
  | between (column : ColumnName) (low high : Value) (negated : Bool)
  | oneOf (column : ColumnName) (values : List Value) (negated : Bool)
  | group (filter : Filter)
  | existence (query : Select) (negated : Bool)

/-- Predicates under one connective. -/
structure Filter where
  terms : List Expr
  connective : Connective

/-- A query. -/
structure Select where
  table : Option String
  schema : Option String
  tableAlias : Option String
  distinct : Bool
  columns : List Expr
  filter : Filter
  joins : List Join
  groups : List Grouping
  sort : Option SortKey
  limits : Limits
  recursion : Option Recursion

end

namespace Filter

/-- No predicate at all. -/
def empty : Filter := ⟨[], .and⟩

def isEmpty (f : Filter) : Bool := f.terms.isEmpty

end Filter

namespace Select

/-- Everything from a table that is not named yet. -/
def empty : Select :=
  { table := none
    schema := none
    tableAlias := none
    distinct := false
    columns := []
    filter := .empty
    joins := []
    groups := []
    sort := none
    limits := .none
    recursion := none }

/-- Everything from a table. -/
def ofTable (table : String) : Select := { empty with table := some table }

end Select

namespace Expr

/-- A column of its own name. -/
def ofColumn (c : ColumnName) : Expr := .column c none

/-- The wildcard. -/
def star : Expr := ofColumn (.plain "*")

/-- A column whose name is the wildcard. -/
def isWildcard : Expr → Bool
  | .column c _ => c.isWildcard
  | _ => false

/-- A select list that names columns: it is not empty and no wildcard stands in it. -/
def nameColumns (columns : List Expr) : Bool :=
  !columns.isEmpty && !columns.any isWildcard

end Expr
end BoundSql
