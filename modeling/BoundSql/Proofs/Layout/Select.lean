import BoundSql.Proofs.Layout.Clause
import BoundSql.Select.Sql

/-!
# Layouts of queries

What a query is refused for and how its layout looks do not depend on the dialect: a query is
checked first, its layout is total, and its SQL is the layout as the dialect writes it. The
checks run in the order in which the parts of a query are rendered. The second arm of a recursive
query renders the select list again, which then has passed its check.
-/
namespace BoundSql

open Layout

namespace Expr

/-! ## Expressions without parts -/

def columnLayout (tableAlias : Option String) (c : ColumnName) : Layout :=
  [.column (c.qualifier.or tableAlias) c.name]

def aggregateLayout (tableAlias : Option String) (function : Aggregate) (c : ColumnName) : Layout :=
  .words function.keyword :: .words "(" ::
    ((if c.isWildcard then [.words "*"] else columnLayout tableAlias c) ++ [.words ")"])

def datePartLayout (tableAlias : Option String) (part : DatePart) (c : ColumnName) : Layout :=
  .words part.keyword :: .words "(" :: (columnLayout tableAlias c ++ [.words ")"])

/-- What stands to the right of an operator. -/
def operandLayout (op : Operator) (value : Value) : Layout :=
  match op with
  | .is | .isNot =>
    match literal? value with
    | some literal => [.words " ", .words literal]
    | none => []
  | .isNull | .isNotNull => []
  | _ => [.words " ", .value value]

def comparisonLayout (tableAlias : Option String) (c : ColumnName) (op : Operator)
    (value : Value) : Layout :=
  columnLayout tableAlias c ++ .words " " :: .words op.keyword :: operandLayout op value

def negationLayout (negated : Bool) : Layout := if negated then [.words "NOT "] else []

def betweenLayout (tableAlias : Option String) (c : ColumnName) (low high : Value)
    (negated : Bool) : Layout :=
  columnLayout tableAlias c ++ .words " " :: (negationLayout negated ++
    [.words "BETWEEN ", .value low, .words " AND ", .value high])

def oneOfLayout (tableAlias : Option String) (c : ColumnName) (values : List Value)
    (negated : Bool) : Layout :=
  columnLayout tableAlias c ++ .words " " :: (negationLayout negated ++
    .words "IN (" :: (List.intercalate [.words ","] (values.map fun v => [.value v]) ++
      [.words ")"]))

/-- `IS` and `IS NOT` take a keyword to their right. -/
def comparisonCheck (c : ColumnName) (op : Operator) (value : Value) : Except Error Unit :=
  match op with
  | .is | .isNot =>
    if (literal? value).isSome then .ok () else .error (.notLiteral op c.name value)
  | _ => .ok ()

section
variable (s : Scope)

theorem columnLayout_eq (c : ColumnName) :
    Fragment.ofText (s.column c) = write s.dialect (columnLayout s.tableAlias c) := by
  rw [columnLayout, write_singleton]
  rfl

theorem aggregateSql_eq (function : Aggregate) (c : ColumnName) (label : Option String) :
    aggregateSql s function c label =
      write s.dialect (Layout.labelled (aggregateLayout s.tableAlias function c) label) := by
  refine s.aliased_eq ?_ label
  cases h : c.isWildcard <;> ext1 <;>
    simp [aggregateLayout, columnLayout, h, Piece.sql, Scope.column, String.append_assoc]

theorem datePartSql_eq (part : DatePart) (c : ColumnName) (label : Option String) :
    Fragment.ofText (s.aliased (part.keyword ++ "(" ++ s.column c ++ ")") label) =
      write s.dialect (Layout.labelled (datePartLayout s.tableAlias part c) label) := by
  refine s.aliased_eq ?_ label
  ext1 <;> simp [datePartLayout, columnLayout, Piece.sql, Scope.column, String.append_assoc]

theorem comparisonSql_eq (c : ColumnName) (op : Operator) (value : Value) :
    comparisonSql s c op value =
      (comparisonCheck c op value).map fun _ =>
        write s.dialect (comparisonLayout s.tableAlias c op value) := by
  have hop : ∀ operand : Layout,
      write s.dialect (columnLayout s.tableAlias c ++ .words " " :: .words op.keyword :: operand) =
        Fragment.ofText (s.column c ++ " " ++ op.keyword) ++ write s.dialect operand := by
    intro operand
    ext1 <;> simp [columnLayout, Piece.sql, Scope.column, String.append_assoc]
  unfold comparisonSql comparisonCheck comparisonLayout operandLayout
  rw [hop]
  cases op
  case is | isNot =>
    cases hv : literal? value with
    | none => simp [Except.map]
    | some literal =>
      simp only [Option.isSome_some, if_true, Except.map]
      congr 1
      ext1 <;> simp [Piece.sql, String.append_assoc]
  all_goals
    simp only [Except.map]
    congr 1
    ext1 <;> simp [Piece.sql, Scope.placeholder, String.append_assoc]

theorem betweenSql_eq (c : ColumnName) (low high : Value) (negated : Bool) :
    betweenSql s c low high negated =
      write s.dialect (betweenLayout s.tableAlias c low high negated) := by
  cases negated <;> apply Fragment.ext_chars <;>
    simp [betweenSql, betweenLayout, columnLayout, negation, negationLayout, Piece.sql,
      Scope.column, Scope.placeholder]

/-- A list of placeholders between commas binds the values in their order. -/
theorem write_values (d : Dialect) (values : List Value) :
    write d (List.intercalate [.words ","] (values.map fun v => [.value v])) =
      .bound (String.intercalate "," (values.map fun _ => d.placeholder)) values := by
  rw [write_intercalate]
  ext1
  · simp [Function.comp_def, Piece.sql]
  · simp [Piece.sql, List.flatMap_map, ← List.map_eq_flatMap]

theorem oneOfSql_eq (c : ColumnName) (values : List Value) (negated : Bool) :
    oneOfSql s c values negated =
      write s.dialect (oneOfLayout s.tableAlias c values negated) := by
  have hv := write_values s.dialect values
  cases negated <;> apply Fragment.ext_chars <;>
    simp [oneOfSql, oneOfLayout, columnLayout, negation, negationLayout, Piece.sql, hv,
      Scope.column, Scope.placeholder]

end
end Expr

namespace Select

/-- One arm of a query, its select list and its filter laid out. -/
structure Arm where
  distinct : Bool
  columns : Layout
  joins : List Join
  filter : Layout
  groups : List Grouping
  limits : Limits
  sort : Option SortKey

namespace Arm

/-- An empty select list selects everything. -/
def columnList (a : Arm) : Layout := if a.columns.isEmpty then [.words "*"] else a.columns

def layout (t : Target) (a : Arm) : Layout :=
  .words (if a.distinct then "SELECT DISTINCT " else "SELECT ") :: (a.columnList ++
    .words " FROM " :: (t.layout ++ headed " " (Join.clauseLayout a.joins) ++
      headed " WHERE " a.filter ++ headed " " (Grouping.clauseLayout t.tableAlias a.groups) ++
      a.limits.layout ++ SortKey.clauseLayout a.sort))

/-- The same arm with its parts written. -/
def body (d : Dialect) (a : Arm) : Body :=
  ⟨a.distinct, write d a.columns, a.joins, write d a.filter, a.groups, a.limits, a.sort⟩

end Arm
end Select

namespace Recursion

/-- The arm that is joined to the rows found before. -/
def memberArm (distinct : Bool) (columns : Layout) (groups : List Grouping) (r : Recursion) :
    Select.Arm :=
  ⟨distinct, columns, [r.join], [], groups, .none, none⟩

/-- The columns of the second arm; an empty list selects all columns of the table alone. -/
def memberLayout (columns : List Layout) : Layout :=
  if columns.isEmpty then [.column (some memberAlias) "*"] else joined "," columns

def layout (initial member : Layout) : Layout :=
  .words "WITH RECURSIVE recursive_cte AS ( " :: (initial ++ .words " UNION ALL " ::
    (member ++ [.words " ) SELECT * FROM recursive_cte"]))

end Recursion

mutual

/-- Why an expression is refused. -/
def Expr.check : Expr → Except Error Unit
  | .comparison c op value => Expr.comparisonCheck c op value
  | .group filter => filter.check
  | .existence query _ => query.check
  | _ => .ok ()

/-- The first expression of a list that is refused counts. -/
def Expr.checks : List Expr → Except Error Unit
  | [] => .ok ()
  | e :: rest => do
    e.check
    Expr.checks rest

def Filter.check : Filter → Except Error Unit
  | ⟨terms, _⟩ => Expr.checks terms

/-- Why a query is refused: its table, its select list, its keys, then its expressions. -/
def Select.check : Select → Except Error Unit
  | ⟨table, schema, tableAlias, distinct, columns, filter, _, _, _, _, recursion⟩ => do
    let _ ← Target.resolve table schema tableAlias
    if distinct && !Expr.nameColumns columns then throw .noDistinctColumns
    if let some r := recursion then r.check
    Expr.checks columns
    filter.check

end

mutual

/-- The layout of an expression under the alias of its statement. -/
def Expr.layout (tableAlias : Option String) : Expr → Layout
  | .raw r => [.raw r]
  | .column c label => labelled (Expr.columnLayout tableAlias c) label
  | .aggregate function c label => labelled (Expr.aggregateLayout tableAlias function c) label
  | .rawColumn r => [.raw r]
  | .datePart part c label => labelled (Expr.datePartLayout tableAlias part c) label
  | .comparison c op value => Expr.comparisonLayout tableAlias c op value
  | .between c low high negated => Expr.betweenLayout tableAlias c low high negated
  | .oneOf c values negated => Expr.oneOfLayout tableAlias c values negated
  | .group filter => enclosed "( " " )" (filter.layout tableAlias)
  | .existence query negated =>
    Expr.negationLayout negated ++ .words "EXISTS ( " :: (query.layout ++ [.words " )"])

def Expr.layouts (tableAlias : Option String) : List Expr → List Layout
  | [] => []
  | e :: rest => e.layout tableAlias :: Expr.layouts tableAlias rest

def Filter.layout (tableAlias : Option String) : Filter → Layout
  | ⟨terms, connective⟩ =>
    joined (" " ++ connective.keyword ++ " ") (Expr.layouts tableAlias terms)

/-- The layout of a query. A table that is not named counts as one without a name. -/
def Select.layout : Select → Layout
  | ⟨table, schema, tableAlias, distinct, columns, filter, joins, groups, sort, limits,
      recursion⟩ =>
    let target : Target := ⟨table.getD "", schema, tableAlias⟩
    let arm : Select.Arm :=
      ⟨distinct, joined "," (Expr.layouts tableAlias columns), joins, filter.layout tableAlias,
        groups, limits, sort⟩
    match recursion with
    | none => arm.layout target
    | some r =>
      let again : Target := { target with tableAlias := some Recursion.memberAlias }
      let columns := Recursion.memberLayout (Expr.layouts (some Recursion.memberAlias) columns)
      Recursion.layout ({ arm with joins := [] }.layout target)
        ((r.memberArm distinct columns groups).layout again)

end

namespace Select

/-- The table of a query; one that is not named counts as one without a name. -/
def target (q : Select) : Target := ⟨q.table.getD "", q.schema, q.tableAlias⟩

/-- A query with its select list and its filter laid out. -/
def arm (q : Select) : Arm :=
  ⟨q.distinct, joined "," (Expr.layouts q.tableAlias q.columns), q.joins,
    q.filter.layout q.tableAlias, q.groups, q.limits, q.sort⟩

theorem layout_eq_arm {q : Select} (h : q.recursion = none) :
    q.layout = q.arm.layout q.target := by
  cases q
  obtain rfl := h
  rw [layout]
  rfl

/-- The first arm of a recursive query has no joins. -/
def initialArm (q : Select) : Arm := { q.arm with joins := [] }

/-- The second arm selects the same columns under an alias of its own. -/
def memberArm (q : Select) (r : Recursion) : Arm :=
  r.memberArm q.distinct
    (Recursion.memberLayout (Expr.layouts (some Recursion.memberAlias) q.columns)) q.groups

def memberTarget (q : Select) : Target :=
  { q.target with tableAlias := some Recursion.memberAlias }

theorem layout_eq_arms {q : Select} {r : Recursion} (h : q.recursion = some r) :
    q.layout = Recursion.layout (q.initialArm.layout q.target)
      ((q.memberArm r).layout q.memberTarget) := by
  cases q
  obtain rfl := h
  rw [layout]
  rfl

end Select

/-- A filter that shows nothing has no pieces. -/
theorem Filter.layout_eq_nil (tableAlias : Option String) (f : Filter)
    (h : isVisible (f.layout tableAlias) = false) : f.layout tableAlias = [] := by
  cases f
  rw [Filter.layout] at *
  exact joined_eq_nil h

section
variable {d : Dialect} (hd : d.Visible)
include hd

theorem Select.Arm.sql_eq (t : Target) (a : Arm) (hc : isVisible a.columns = false → a.columns = [])
    (hf : isVisible a.filter = false → a.filter = []) :
    (a.body d).sql d t = write d (a.layout t) := by
  have hcolumns : (a.body d).columnList = write d a.columnList := by
    unfold Body.columnList columnList
    rw [body, isEmpty_write hd]
    cases hv : isVisible a.columns with
    | false => simp [hc hv, Piece.sql, Fragment.append_empty]
    | true =>
      have hne : a.columns ≠ [] := by
        intro he
        simp [he] at hv
      simp [hne]
  have hjoins : (Join.clause (t.scope d) a.joins).surrounded " " "" =
      write d (headed " " (Join.clauseLayout a.joins)) := by
    rw [Target.scope, Join.clause_eq hd]
    exact headed_write hd _ joined_eq_nil
  have hfilter := headed_write hd " WHERE " hf
  have hgroups : (Grouping.clause (t.scope d) a.groups).surrounded " " "" =
      write d (headed " " (Grouping.clauseLayout t.tableAlias a.groups)) := by
    rw [Target.scope, Grouping.clause_eq hd, headed_write hd]
    unfold Grouping.clauseLayout headed
    split <;> simp [Piece.isVisible]
  have hlimits := Limits.clause_eq (t.scope d) a.limits
  have hsort := SortKey.clause_eq (t.scope d) a.sort
  have hfrom : Fragment.ofText (" FROM " ++ t.nameAliased d) =
      .ofText " FROM " ++ write d t.layout := by
    rw [Fragment.ofText_append, Target.nameAliased_eq]
  rw [Body.sql, hcolumns]
  simp only [body, hjoins, hfilter, hgroups, hlimits, hsort, hfrom, layout, write_cons,
    write_append, Fragment.append_assoc, Piece.sql]
  rfl

omit hd in
theorem Recursion.sql_eq (initial member : Layout) :
    Recursion.sql (write d initial) (write d member) =
      write d (Recursion.layout initial member) := by
  apply Fragment.ext_chars <;> simp [Recursion.sql, Recursion.layout, tableName, Piece.sql]

theorem Recursion.memberColumns_eq (columns : List Expr) (layouts : List Layout)
    (h : columns.isEmpty = layouts.isEmpty) :
    memberColumns ⟨d, some memberAlias⟩ columns (layouts.map (write d)) =
      write d (memberLayout layouts) := by
  unfold memberColumns memberLayout
  rw [h]
  cases layouts.isEmpty with
  | true => exact (write_singleton d (.column (some memberAlias) "*")).symm
  | false => exact joined_write hd "," layouts

end

theorem Recursion.memberLayout_eq_nil (layouts : List Layout)
    (h : isVisible (memberLayout layouts) = false) : memberLayout layouts = [] := by
  unfold memberLayout at *
  split at h
  · simp [Piece.isVisible] at h
  · rw [if_neg ‹_›]
    exact joined_eq_nil h

theorem Expr.isEmpty_layouts (tableAlias : Option String) (es : List Expr) :
    es.isEmpty = (Expr.layouts tableAlias es).isEmpty := by
  cases es <;> simp [Expr.layouts]

section
variable {d : Dialect}

mutual

/-- The SQL of an expression is its layout, once it has passed its check. -/
theorem Expr.sql_eq (hd : d.Visible) (tableAlias : Option String) : (e : Expr) →
    e.sql ⟨d, tableAlias⟩ = e.check.map fun _ => write d (e.layout tableAlias)
  | .raw r | .rawColumn r => by
    simp [Expr.sql, Expr.check, Expr.layout, Except.map, Piece.sql, Fragment.append_empty]
  | .column c label => by
    simp only [Expr.sql, Expr.check, Expr.layout, Except.map]
    rw [Scope.aliased_eq ⟨d, tableAlias⟩ (Expr.columnLayout_eq ⟨d, tableAlias⟩ c)]
  | .aggregate function c label => by
    simp only [Expr.sql, Expr.check, Expr.layout, Except.map]
    rw [Expr.aggregateSql_eq]
  | .datePart part c label => by
    simp only [Expr.sql, Expr.check, Expr.layout, Except.map]
    rw [Expr.datePartSql_eq]
  | .comparison c op value => by
    rw [Expr.sql, Expr.comparisonSql_eq, Expr.check, Expr.layout]
  | .between c low high negated => by
    simp only [Expr.sql, Expr.check, Expr.layout, Except.map]
    rw [Expr.betweenSql_eq]
  | .oneOf c values negated => by
    simp only [Expr.sql, Expr.check, Expr.layout, Except.map]
    rw [Expr.oneOfSql_eq]
  | .group filter => by
    rw [Expr.sql, Filter.sql_eq hd tableAlias filter, Expr.check, Expr.layout]
    cases filter.check with
    | error e => rfl
    | ok u =>
      have h := enclosed_write hd "( " " )" (Filter.layout_eq_nil tableAlias filter)
      simp [Except.map, bind, Except.bind, pure, Except.pure, h]
  | .existence query negated => by
    rw [Expr.sql, Select.sql_eq hd query, Expr.check, Expr.layout]
    cases query.check with
    | error e => rfl
    | ok u =>
      simp only [Except.map, bind, Except.bind, pure, Except.pure]
      congr 1
      cases negated <;> apply Fragment.ext_chars <;>
        simp [Expr.negation, Expr.negationLayout, Piece.sql]

theorem Expr.sqls_eq (hd : d.Visible) (tableAlias : Option String) : (es : List Expr) →
    Expr.sqls ⟨d, tableAlias⟩ es =
      (Expr.checks es).map fun _ => (Expr.layouts tableAlias es).map (write d)
  | [] => rfl
  | e :: rest => by
    rw [Expr.sqls, Expr.sql_eq hd tableAlias e, Expr.sqls_eq hd tableAlias rest, Expr.checks,
      Expr.layouts]
    cases e.check with
    | error e => rfl
    | ok u => cases Expr.checks rest <;> rfl

theorem Filter.sql_eq (hd : d.Visible) (tableAlias : Option String) : (f : Filter) →
    f.sql ⟨d, tableAlias⟩ = f.check.map fun _ => write d (f.layout tableAlias)
  | ⟨terms, connective⟩ => by
    rw [Filter.sql, Expr.sqls_eq hd tableAlias terms, Filter.check, Filter.layout,
      ← joined_write hd]
    cases Expr.checks terms <;> rfl

/-- The SQL of a query is its layout, once it has passed its check. -/
theorem Select.sql_eq (hd : d.Visible) :
    (q : Select) → q.sql d = q.check.map fun _ => write d q.layout
  | ⟨table, schema, tableAlias, distinct, columns, filter, joins, groups, sort, limits,
      recursion⟩ => by
    have hsqls := fun name => Expr.sqls_eq hd name columns
    have hfilter := Filter.sql_eq hd tableAlias filter
    have hempty := Filter.layout_eq_nil tableAlias filter
    rw [Select.sql, Select.check]
    cases htarget : Target.resolve table schema tableAlias with
    | error e => rfl
    | ok target =>
      obtain ⟨rfl, rfl, rfl, -⟩ := Target.resolve_eq_ok_iff.1 htarget
      cases hdistinct : distinct && !Expr.nameColumns columns with
      | true => rfl
      | false =>
        have harm := fun joins => Select.Arm.sql_eq hd target
          ⟨distinct, joined "," (Expr.layouts target.tableAlias columns), joins,
            filter.layout target.tableAlias, groups, limits, sort⟩ joined_eq_nil hempty
        simp only [Select.Arm.body, ← joined_write hd] at harm
        cases recursion with
        | none =>
          rw [Select.layout.eq_def]
          simp only [bind, Except.bind, pure, Except.pure, Target.scope, hsqls, hfilter]
          cases Expr.checks columns with
          | error e => rfl
          | ok u =>
            cases filter.check with
            | error e => rfl
            | ok u =>
              simp [Except.map, harm]
        | some r =>
          rw [Select.layout.eq_def]
          simp only [bind, Except.bind, pure, Except.pure, Target.scope, hsqls, hfilter]
          cases r.check with
          | error e => rfl
          | ok u =>
            cases Expr.checks columns with
            | error e => rfl
            | ok u =>
              cases filter.check with
              | error e => rfl
              | ok u =>
                have hmember := Select.Arm.sql_eq hd
                  ⟨target.table, target.schema, some Recursion.memberAlias⟩
                  (r.memberArm distinct (Recursion.memberLayout
                    (Expr.layouts (some Recursion.memberAlias) columns)) groups)
                  (Recursion.memberLayout_eq_nil _) fun _ => rfl
                simp only [Select.Arm.body, Recursion.memberArm, write_nil, ←
                  Recursion.memberColumns_eq hd columns _ (Expr.isEmpty_layouts _ columns)]
                  at hmember
                simp only [Except.map, harm, hmember, ← Recursion.sql_eq, Option.getD_some]
                rfl

end

end

end BoundSql
