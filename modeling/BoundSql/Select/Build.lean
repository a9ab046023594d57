import BoundSql.Select.Basic

/-!
# Building queries

Names for the common expressions, and the edits by which a query grows. A query is built by a
list of edits, applied from left to right; each edit changes one part of it.
-/
namespace BoundSql

namespace Expr

/-! ## Columns -/

def labelled (c : ColumnName) (label : String) : Expr := .column c (some label)

def count (c : ColumnName) : Expr := .aggregate .count c none

def sum (c : ColumnName) : Expr := .aggregate .sum c none

def avg (c : ColumnName) : Expr := .aggregate .avg c none

def min (c : ColumnName) : Expr := .aggregate .min c none

def max (c : ColumnName) : Expr := .aggregate .max c none

def date (c : ColumnName) : Expr := .datePart .date c none

def dateTime (c : ColumnName) : Expr := .datePart .dateTime c none

/-! ## Predicates -/

/-- The operator by which a value is compared: null is not equal to anything, so equality with
it becomes a test for null. -/
def nullSafe (op : Operator) (value : Value) : Operator :=
  match value, op with
  | .null, .eq | .null, .is => .isNull
  | .null, .ne | .null, .ltGt | .null, .isNot => .isNotNull
  | _, _ => op

/-- Compares a column with a value, which a test for null does not keep. -/
def compare (c : ColumnName) (op : Operator) (value : Value) : Expr :=
  let op := nullSafe op value
  .comparison c op (if op.isNullTest then .null else value)

def eq (c : ColumnName) (value : Value) : Expr := compare c .eq value

def ne (c : ColumnName) (value : Value) : Expr := compare c .ne value

def gt (c : ColumnName) (value : Value) : Expr := compare c .gt value

def gte (c : ColumnName) (value : Value) : Expr := compare c .gte value

def lt (c : ColumnName) (value : Value) : Expr := compare c .lt value

def lte (c : ColumnName) (value : Value) : Expr := compare c .lte value

def like (c : ColumnName) (pattern : Value) : Expr := compare c .like pattern

def isNull (c : ColumnName) : Expr := compare c .isNull .null

def isNotNull (c : ColumnName) : Expr := compare c .isNotNull .null

/-- The predicate that holds of every row or of none. -/
def truth (b : Bool) : Expr := .raw ⟨if b then "TRUE" else "FALSE", []⟩

end Expr

namespace Filter

/-- A change to a filter. -/
inductive Edit where
  /-- Adds a predicate; one added by `or` turns the whole filter into a disjunction. -/
  | add (connective : Connective) (term : Expr)
  | addAll (terms : List Expr)
  | clear

namespace Edit

def compare (connective : Connective) (c : ColumnName) (op : Operator) (value : Value) : Edit :=
  .add connective (Expr.compare c op value)

/-- A comparison whose operator is given as a token. -/
def compareToken (connective : Connective) (c : ColumnName) (token : String) (value : Value) :
    Except Error Edit := do
  return compare connective c (← Operator.parse token) value

/-- One equality for each column. -/
def equalities (pairs : List (ColumnName × Value)) : Edit :=
  .addAll (pairs.map fun (c, value) => Expr.eq c value)

end Edit

def edit (f : Filter) : Edit → Filter
  | .add connective term =>
    ⟨f.terms ++ [term], if connective = .or then .or else f.connective⟩
  | .addAll terms => ⟨f.terms ++ terms, f.connective⟩
  | .clear => empty

/-- The filter that edits make from nothing. -/
def build (edits : List Edit) : Filter := edits.foldl edit empty

end Filter

namespace Select

/-- A change to a query. -/
inductive Edit where
  | schema (name : String)
  | tableAlias (name : String)
  | addColumns (columns : List Expr)
  | clearColumns
  | distinct
  | groupBy (grouping : Grouping)
  | sortBy (key : SortKey)
  | take (count : UInt64)
  | skip (count : UInt64)
  | recurse (recursion : Recursion)
  /-- Joins a table on its primary key. The foreign key belongs to the query's own table and
  takes the alias that the query has at that point. -/
  | join (kind : JoinKind) (table : String) (tableAlias : Option String)
      (foreignKey primaryKey : String)
  | joinRaw (kind : JoinKind) (sql : RawSql)
  | clearJoins
  | filter (edit : Filter.Edit)

/-- One row at most. -/
def Edit.first : Edit := .take 1

def edit (q : Select) : Edit → Select
  | .schema name => { q with schema := some name }
  | .tableAlias name => { q with tableAlias := some name }
  | .addColumns columns => { q with columns := q.columns ++ columns }
  | .clearColumns => { q with columns := [] }
  | .distinct => { q with distinct := true }
  | .groupBy grouping => { q with groups := q.groups ++ [grouping] }
  | .sortBy key => { q with sort := some key }
  | .take count => { q with limits := { q.limits with limit := count } }
  | .skip count => { q with limits := { q.limits with offset := count } }
  | .recurse recursion => { q with recursion := some recursion }
  | .join kind table tableAlias foreignKey primaryKey =>
    { q with joins := q.joins ++
        [.table kind table tableAlias ⟨primaryKey, tableAlias⟩ ⟨foreignKey, q.tableAlias⟩] }
  | .joinRaw kind sql => { q with joins := q.joins ++ [.raw kind sql] }
  | .clearJoins => { q with joins := [] }
  | .filter e => { q with filter := q.filter.edit e }

/-- The query that edits make from another. -/
def build (q : Select) (edits : List Edit) : Select := edits.foldl edit q

end Select
end BoundSql
