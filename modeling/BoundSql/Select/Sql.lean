import BoundSql.Select.Clause

/-!
# SQL of queries

Expressions become fragments in the scope of their statement; a query inside `EXISTS` has a
scope of its own. A predicate without text, raw or a group of such predicates, leaves no trace
in its filter.

A recursive query becomes a common table expression. Its first arm is the query without joins.
Its second arm selects the same columns from the same table, joined to the rows found before,
under an alias of its own; filter, limits and sort belong to the first arm only.
-/
namespace BoundSql

namespace Expr

/-- `IS` and `IS NOT` compare with a keyword. -/
def literal? : Value → Option String
  | .bool true => some "TRUE"
  | .bool false => some "FALSE"
  | .null => some "NULL"
  | _ => none

/-- `column OP ?`, or `column IS TRUE` and the like; a test for null has no right side. -/
def comparisonSql (s : Scope) (c : ColumnName) (op : Operator) (value : Value) :
    Except Error Fragment :=
  let left := s.column c ++ " " ++ op.keyword
  match op with
  | .is | .isNot =>
    match literal? value with
    | some literal => .ok (.ofText (left ++ " " ++ literal))
    | none => .error (.notLiteral op c.name value)
  | .isNull | .isNotNull => .ok (.ofText left)
  | _ => .ok ((Fragment.ofText (left ++ " ")).pushBound s.placeholder value)

def negation (negated : Bool) : String := if negated then "NOT " else ""

/-- `column BETWEEN ? AND ?`. -/
def betweenSql (s : Scope) (c : ColumnName) (low high : Value) (negated : Bool) : Fragment :=
  let left := s.column c ++ " " ++ negation negated ++ "BETWEEN "
  (((Fragment.ofText left).pushBound s.placeholder low).push " AND ").pushBound s.placeholder high

/-- `column IN (?,?)`. -/
def oneOfSql (s : Scope) (c : ColumnName) (values : List Value) (negated : Bool) : Fragment :=
  let placeholders := String.intercalate "," (values.map fun _ => s.placeholder)
  .bound (s.column c ++ " " ++ negation negated ++ "IN (" ++ placeholders ++ ")") values

/-- `COUNT(column)`; the wildcard of an aggregate has no qualifier. -/
def aggregateSql (s : Scope) (function : Aggregate) (c : ColumnName) (label : Option String) :
    Fragment :=
  let argument := if c.isWildcard then "*" else s.column c
  .ofText (s.aliased (function.keyword ++ "(" ++ argument ++ ")") label)

end Expr

namespace Select

/-- A query whose expressions have been rendered. -/
structure Body where
  distinct : Bool
  columns : Fragment
  joins : List Join
  filter : Fragment
  groups : List Grouping
  limits : Limits
  sort : Option SortKey

namespace Body

/-- An empty select list selects everything. -/
def columnList (b : Body) : Fragment := if b.columns.isEmpty then .ofText "*" else b.columns

/-- The whole query on a table. Joins and groupings are set off by a space. -/
def sql (d : Dialect) (t : Target) (b : Body) : Fragment :=
  let s := t.scope d
  .ofText (if b.distinct then "SELECT DISTINCT " else "SELECT ") ++ b.columnList ++
    .ofText (" FROM " ++ t.nameAliased d) ++
    (Join.clause s b.joins).surrounded " " "" ++
    b.filter.surrounded " WHERE " "" ++
    (Grouping.clause s b.groups).surrounded " " "" ++
    b.limits.clause s ++ SortKey.clause s b.sort

end Body
end Select

namespace Recursion

/-- The name of the common table expression. -/
def tableName : String := "recursive_cte"

/-- The alias of the table in the second arm. -/
def memberAlias : String := "$recursive$"

/-- The alias of the rows found before. -/
def anchorAlias : String := "$recursive_cte$"

/-- Neither key may be blank. -/
def check (r : Recursion) : Except Error Unit :=
  if Text.isBlank r.recursiveKey || Text.isBlank r.anchorKey then .error .blankRecursionKey
  else .ok ()

/-- Joins a row to the rows found before it. -/
def join (r : Recursion) : Join :=
  .table .inner tableName (some anchorAlias) (.qualified memberAlias r.recursiveKey)
    (.qualified anchorAlias r.anchorKey)

/-- Both arms together. -/
def sql (initial member : Fragment) : Fragment :=
  .ofText ("WITH RECURSIVE " ++ tableName ++ " AS ( ") ++ initial ++ .ofText " UNION ALL " ++
    member ++ .ofText (" ) SELECT * FROM " ++ tableName)

/-- The second arm for a select list; an empty one selects all columns of the table alone. -/
def memberColumns (s : Scope) (columns : List Expr) (rendered : List Fragment) : Fragment :=
  if columns.isEmpty then .ofText (s.column (.plain "*")) else .joined "," rendered

end Recursion

mutual

/-- The SQL of an expression. -/
def Expr.sql (s : Scope) : Expr → Except Error Fragment
  | .raw raw => .ok raw.sql
  | .column c label => .ok (.ofText (s.aliased (s.column c) label))
  | .aggregate function c label => .ok (Expr.aggregateSql s function c label)
  | .rawColumn raw => .ok raw.sql
  | .datePart part c label =>
    .ok (.ofText (s.aliased (part.keyword ++ "(" ++ s.column c ++ ")") label))
  | .comparison c op value => Expr.comparisonSql s c op value
  | .between c low high negated => .ok (Expr.betweenSql s c low high negated)
  | .oneOf c values negated => .ok (Expr.oneOfSql s c values negated)
  | .group filter => do return (← filter.sql s).surrounded "( " " )"
  | .existence query negated => do
    let inner ← query.sql s.dialect
    return .ofText (Expr.negation negated ++ "EXISTS ( ") ++ inner ++ .ofText " )"

/-- The SQL of every expression of a list; the first one refused counts. -/
def Expr.sqls (s : Scope) : List Expr → Except Error (List Fragment)
  | [] => .ok []
  | e :: rest => do return (← e.sql s) :: (← Expr.sqls s rest)

/-- The predicates with their connective between them. -/
def Filter.sql (s : Scope) : Filter → Except Error Fragment
  | ⟨terms, connective⟩ => do
    return .joined (" " ++ connective.keyword ++ " ") (← Expr.sqls s terms)

/-- The SQL of a query. -/
def Select.sql (d : Dialect) : Select → Except Error Fragment
  | ⟨table, schema, tableAlias, distinct, columns, filter, joins, groups, sort, limits,
      recursion⟩ => do
    let target ← Target.resolve table schema tableAlias
    if distinct && !Expr.nameColumns columns then throw .noDistinctColumns
    if let some r := recursion then r.check
    let rendered ← Expr.sqls (target.scope d) columns
    let predicates ← filter.sql (target.scope d)
    let body : Select.Body :=
      ⟨distinct, .joined "," rendered, joins, predicates, groups, limits, sort⟩
    match recursion with
    | none => return body.sql d target
    | some r =>
      let again : Target := { target with tableAlias := some Recursion.memberAlias }
      let rendered ← Expr.sqls (again.scope d) columns
      let member : Select.Body :=
        ⟨distinct, Recursion.memberColumns (again.scope d) columns rendered, [r.join], .empty,
          groups, .none, none⟩
      return Recursion.sql ({ body with joins := [] }.sql d target) (member.sql d again)

end

namespace Filter

/-- ` WHERE` and the predicates, if there are any. -/
def clause (s : Scope) (f : Filter) : Except Error Fragment := do
  return (← f.sql s).surrounded " WHERE " ""

end Filter

namespace Expr

/-- A select list, with commas between its columns. -/
def columnsSql (s : Scope) (columns : List Expr) : Except Error Fragment := do
  return .joined "," (← sqls s columns)

end Expr
end BoundSql
