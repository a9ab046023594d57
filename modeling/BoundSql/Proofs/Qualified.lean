import BoundSql.Proofs.Reading.Normal
import BoundSql.Proofs.Scoping

/-!
# Aliases written out

A column without a qualifier takes the alias of its statement. Writing that alias out in front of
every such column changes nothing: an expression with the alias written out reads under any alias
as the plain expression reads under this one. Queries under `EXISTS` have a scope of their own, and
join keys, assigned columns and the bound sort column never take the alias, so all of these stay as
they are. This holds in every dialect, also for the causes of refused statements.
-/
namespace BoundSql

mutual

/-- An expression with the alias in front of its unqualified columns; queries in it stay. -/
def Expr.under (a : String) : Expr → Expr
  | .raw sql => .raw sql
  | .column c label => .column (c.under (some a)) label
  | .aggregate function c label => .aggregate function (c.under (some a)) label
  | .rawColumn sql => .rawColumn sql
  | .datePart part c label => .datePart part (c.under (some a)) label
  | .comparison c op value => .comparison (c.under (some a)) op value
  | .between c low high negated => .between (c.under (some a)) low high negated
  | .oneOf c values negated => .oneOf (c.under (some a)) values negated
  | .group filter => .group (filter.under a)
  | .existence query negated => .existence query negated

def Expr.unders (a : String) : List Expr → List Expr
  | [] => []
  | e :: rest => e.under a :: Expr.unders a rest

def Filter.under (a : String) : Filter → Filter
  | ⟨terms, connective⟩ => ⟨Expr.unders a terms, connective⟩

end

def Select.under (a : String) (q : Select) : Select :=
  { q with
    columns := Expr.unders a q.columns
    filter := q.filter.under a
    groups := q.groups.map (Grouping.under (some a)) }

namespace Query

/-- A statement with an alias in front of the columns that would take it. -/
def under (a : String) : Query → Query
  | .select q => .select (q.under a)
  | .update q => .update { q with filter := q.filter.under a }
  | .delete q => .delete { q with filter := q.filter.under a }
  | q => q

/-- The alias of a statement's table, in the kinds of statements that have one. -/
def tableAlias : Query → Option String
  | .select q => q.tableAlias
  | .update q => q.tableAlias
  | .delete q => q.tableAlias
  | _ => none

def isRecursive : Query → Bool
  | .select q => q.recursion.isSome
  | _ => false

/-- The columns that a statement writes under its alias. -/
def columnNames : Query → List ColumnName
  | .select q => q.columnNames
  | .update q => q.filter.columnNames
  | .delete q => q.filter.columnNames
  | _ => []

end Query

/-! ## Expressions -/

section
variable (d : Dialect) (a : String) (b : Option String)

/-- With the alias written out, the alias around a column does not count. -/
@[simp] theorem Scope.column_under (c : ColumnName) :
    Scope.column ⟨d, b⟩ (c.under (some a)) = Scope.column ⟨d, some a⟩ c := by
  cases h : c.qualifier <;> simp [Scope.column, ColumnName.under, h]

@[simp] theorem ColumnName.isWildcard_under (c : ColumnName) :
    (c.under (some a)).isWildcard = c.isWildcard := rfl

theorem Expr.comparisonSql_under (c : ColumnName) (op : Operator) (value : Value) :
    Expr.comparisonSql ⟨d, b⟩ (c.under (some a)) op value =
      Expr.comparisonSql ⟨d, some a⟩ c op value := by
  simp only [Expr.comparisonSql, Scope.column_under, Scope.placeholder]
  rfl

mutual

theorem Expr.sql_under : (e : Expr) → (e.under a).sql ⟨d, b⟩ = e.sql ⟨d, some a⟩
  | .raw r | .rawColumn r => by
    rw [Expr.under, Expr.sql, Expr.sql]
  | .column c label | .datePart part c label => by
    rw [Expr.under, Expr.sql, Expr.sql, Scope.column_under]
    rfl
  | .aggregate function c label => by
    rw [Expr.under, Expr.sql, Expr.sql]
    simp only [Expr.aggregateSql, Scope.column_under, ColumnName.isWildcard_under]
    rfl
  | .comparison c op value => by
    rw [Expr.under, Expr.sql, Expr.sql, Expr.comparisonSql_under]
  | .between c low high negated => by
    rw [Expr.under, Expr.sql, Expr.sql]
    simp only [Expr.betweenSql, Scope.column_under, Scope.placeholder]
  | .oneOf c values negated => by
    rw [Expr.under, Expr.sql, Expr.sql]
    simp only [Expr.oneOfSql, Scope.column_under, Scope.placeholder]
  | .group filter => by
    rw [Expr.under, Expr.sql, Expr.sql, Filter.sql_under filter]
  | .existence query negated => by
    rw [Expr.under, Expr.sql, Expr.sql]

theorem Expr.sqls_under : (es : List Expr) →
    Expr.sqls ⟨d, b⟩ (Expr.unders a es) = Expr.sqls ⟨d, some a⟩ es
  | [] => by
    rw [Expr.unders, Expr.sqls, Expr.sqls]
  | e :: rest => by
    rw [Expr.unders, Expr.sqls, Expr.sqls, Expr.sql_under e, Expr.sqls_under rest]

/-- A filter with the alias written out reads under any alias as the plain one under this one. -/
theorem Filter.sql_under : (f : Filter) → (f.under a).sql ⟨d, b⟩ = f.sql ⟨d, some a⟩
  | ⟨terms, connective⟩ => by
    rw [Filter.under, Filter.sql, Filter.sql, Expr.sqls_under terms]

end

theorem Filter.clause_under (f : Filter) :
    (f.under a).clause ⟨d, b⟩ = f.clause ⟨d, some a⟩ := by
  rw [Filter.clause, Filter.clause, Filter.sql_under]

theorem Grouping.clause_under (groups : List Grouping) :
    Grouping.clause ⟨d, b⟩ (groups.map (Grouping.under (some a))) =
      Grouping.clause ⟨d, some a⟩ groups := by
  have hsql : ∀ g : Grouping, (g.under (some a)).sql ⟨d, b⟩ = g.sql ⟨d, some a⟩ := by
    intro g
    cases g with
    | column c => rw [Grouping.under, Grouping.sql, Grouping.sql, Scope.column_under]
    | raw r => rfl
  simp only [Grouping.clause, List.map_map, Function.comp_def, hsql]

/-- A wildcard stays one under an alias. -/
theorem Expr.nameColumns_unders (columns : List Expr) :
    Expr.nameColumns (Expr.unders a columns) = Expr.nameColumns columns := by
  have hwildcard : ∀ e : Expr, (e.under a).isWildcard = e.isWildcard := by
    intro e
    cases e <;> simp only [Expr.under, Expr.isWildcard, ColumnName.isWildcard_under]
  have hany : (Expr.unders a columns).any Expr.isWildcard = columns.any Expr.isWildcard := by
    induction columns with
    | nil => rfl
    | cons e rest ih => rw [Expr.unders, List.any_cons, List.any_cons, ih, hwildcard]
  rw [Expr.nameColumns, Expr.nameColumns, hany]
  cases columns <;> rfl

end

/-! ## Columns -/

section
variable (a : String)

mutual

theorem Expr.columnNames_under :
    (e : Expr) → (e.under a).columnNames = e.columnNames.map (ColumnName.under (some a))
  | .column c label | .datePart part c label | .comparison c op value | .between c low high negated
  | .oneOf c values negated => by
    rw [Expr.under, Expr.columnNames, Expr.columnNames, List.map_singleton]
  | .aggregate function c label => by
    rw [Expr.under, Expr.columnNames, Expr.columnNames, ColumnName.isWildcard_under]
    split <;> rfl
  | .group filter => by
    rw [Expr.under, Expr.columnNames, Expr.columnNames, Filter.columnNames_under filter]
  | .raw r | .rawColumn r | .existence query negated => by
    rw [Expr.under, Expr.columnNames, List.map_nil]

theorem Expr.listColumnNames_unders : (es : List Expr) →
    Expr.listColumnNames (Expr.unders a es) =
      (Expr.listColumnNames es).map (ColumnName.under (some a))
  | [] => by
    rw [Expr.unders, Expr.listColumnNames, List.map_nil]
  | e :: rest => by
    rw [Expr.unders, Expr.listColumnNames, Expr.listColumnNames, List.map_append,
      Expr.columnNames_under e, Expr.listColumnNames_unders rest]

theorem Filter.columnNames_under :
    (f : Filter) → (f.under a).columnNames = f.columnNames.map (ColumnName.under (some a))
  | ⟨terms, connective⟩ => by
    rw [Filter.under, Filter.columnNames, Filter.columnNames, Expr.listColumnNames_unders terms]

end

theorem Grouping.columnNames_under (groups : List Grouping) :
    (groups.map (Grouping.under (some a))).flatMap Grouping.columnNames =
      (groups.flatMap Grouping.columnNames).map (ColumnName.under (some a)) := by
  induction groups with
  | nil => rfl
  | cons g rest ih =>
    rw [List.map_cons, List.flatMap_cons, List.flatMap_cons, List.map_append, ih]
    cases g <;> rfl

/-- The columns of a statement each take the alias, unless they have a qualifier. -/
theorem Query.columnNames_under (q : Query) :
    (q.under a).columnNames = q.columnNames.map (ColumnName.under (some a)) := by
  cases q with
  | select q =>
    simp only [under, columnNames, Select.columnNames, Select.under, List.map_append,
      Expr.listColumnNames_unders, Filter.columnNames_under, Grouping.columnNames_under]
  | update q => exact Filter.columnNames_under a q.filter
  | delete q => exact Filter.columnNames_under a q.filter
  | insert q | createTable q | createIndex q => rfl

end

/-! ## Statements -/

/-- What follows may rely on the alias of the table. -/
theorem Target.resolve_bind_congr {α : Type} {table schema tableAlias : Option String}
    {f g : Target → Except Error α} (h : ∀ t : Target, t.tableAlias = tableAlias → f t = g t) :
    resolve table schema tableAlias >>= f = resolve table schema tableAlias >>= g := by
  cases htarget : resolve table schema tableAlias with
  | error e => rfl
  | ok t =>
    obtain ⟨-, -, halias, -⟩ := resolve_eq_ok_iff.1 htarget
    exact h t halias.symm

section
variable (d : Dialect) {a : String}

theorem Select.Body.sql_under {t : Target} (ht : t.tableAlias = some a) (b : Body) :
    Body.sql d t { b with groups := b.groups.map (Grouping.under (some a)) } = b.sql d t := by
  have hgroups := Grouping.clause_under d a (some a) b.groups
  simp only [Body.sql, Target.scope, ht, hgroups]
  rfl

theorem Select.sql_under {q : Select} (ha : q.tableAlias = some a) (hr : q.recursion = none) :
    (q.under a).sql d = q.sql d := by
  obtain ⟨table, schema, tableAlias, distinct, columns, filter, joins, groups, sort, limits,
    recursion⟩ := q
  obtain rfl := ha
  obtain rfl := hr
  simp only [under]
  rw [sql, sql]
  refine Target.resolve_bind_congr fun t ht => ?_
  have hbody : ∀ columns predicates : Fragment,
      Body.sql d t ⟨distinct, columns, joins, predicates,
        groups.map (Grouping.under (some a)), limits, sort⟩ =
      Body.sql d t ⟨distinct, columns, joins, predicates, groups, limits, sort⟩ :=
    fun columns predicates =>
      Body.sql_under d ht ⟨distinct, columns, joins, predicates, groups, limits, sort⟩
  simp only [Expr.nameColumns_unders, Target.scope, ht, Expr.sqls_under, Filter.sql_under, hbody]

theorem Update.sql_under {q : Update} (ha : q.tableAlias = some a) :
    Update.sql d { q with filter := q.filter.under a } = q.sql d := by
  refine Target.resolve_bind_congr fun t ht => ?_
  simp only [Target.scope, ht, ha, Filter.clause_under]

theorem Delete.sql_under {q : Delete} (ha : q.tableAlias = some a) :
    Delete.sql d { q with filter := q.filter.under a } = q.sql d := by
  refine Target.resolve_bind_congr fun t ht => ?_
  simp only [Target.scope, ht, ha, Filter.clause_under]

/-- A statement is written, or refused, as the one in which its alias stands in front of every
column that has no qualifier; in that one no column depends on the alias. -/
theorem Query.sql_qualified {q : Query} (ha : q.tableAlias = some a) (hr : q.isRecursive = false) :
    (q.under a).sql d = q.sql d ∧ ∀ c ∈ (q.under a).columnNames, c.qualifier.isSome := by
  constructor
  · cases q with
    | select q =>
      exact Select.sql_under d ha (Option.isNone_iff_eq_none.1 (Option.isSome_eq_false_iff.1 hr))
    | update q => exact Update.sql_under d ha
    | delete q => exact Delete.sql_under d ha
    | insert q | createTable q | createIndex q => rfl
  · intro c hc
    rw [columnNames_under] at hc
    obtain ⟨b, -, rfl⟩ := List.mem_map.1 hc
    cases hqualifier : b.qualifier <;> simp [ColumnName.under, hqualifier]

end

/-- Every kind of column under an alias, with a column of another table, a subquery and clauses
that take no alias. -/
def Query.activeUsers : Query :=
  .select
    { Select.ofTable "users" with
      tableAlias := some "u"
      columns :=
        [.ofColumn (.qualified "p" "id"), .aggregate .count (.plain "*") none,
          .aggregate .max (.plain "age") (some "oldest"), .datePart .date (.plain "seen") none]
      joins := [.table .inner "posts" (some "p") (.plain "owner") (.qualified "u" "id")]
      filter :=
        ⟨[.group ⟨[.between (.plain "age") (.int 1) (.int 2) false,
            .oneOf (.plain "role") [.int 3] true], .or⟩,
          .existence
            { Select.ofTable "bans" with
              filter := ⟨[.comparison (.plain "owner") .eq (.int 4)], .and⟩ }
            true], .and⟩
      groups := [.column (.plain "age")]
      sort := some ⟨"age", .asc⟩ }

theorem Query.sql_qualified_activeUsers :
    activeUsers.tableAlias = some "u" ∧ activeUsers.isRecursive = false ∧
      ∃ f, activeUsers.sql .mysql = .ok f ∧ (activeUsers.under "u").sql .mysql = .ok f ∧
        f.text = "SELECT \x60p\x60.\x60id\x60,COUNT(*)," ++
          "MAX(\x60u\x60.\x60age\x60) as \x60oldest\x60,DATE(\x60u\x60.\x60seen\x60) " ++
          "FROM \x60users\x60 as \x60u\x60 " ++
          "INNER JOIN \x60posts\x60 as \x60p\x60 ON \x60owner\x60 = \x60u\x60.\x60id\x60 " ++
          "WHERE ( \x60u\x60.\x60age\x60 BETWEEN ? AND ? " ++
          "OR \x60u\x60.\x60role\x60 NOT IN (?) ) " ++
          "AND NOT EXISTS ( SELECT * FROM \x60bans\x60 WHERE \x60owner\x60 = ? ) " ++
          "GROUP BY \x60u\x60.\x60age\x60 ORDER BY ? ?" ∧
        ∀ c ∈ (activeUsers.under "u").columnNames, c.qualifier.isSome := by
  have hsql : activeUsers.sql .mysql = .ok (activeUsers.layout.write .mysql) :=
    (sql_eq_ok_iff Dialect.visible_mysql).2 ⟨rfl, rfl⟩
  obtain ⟨hunder, hqualified⟩ :=
    sql_qualified .mysql (q := activeUsers) (a := "u") rfl rfl
  exact ⟨rfl, rfl, _, hsql, hunder.trans hsql, by decide +kernel, hqualified⟩

end BoundSql
