import BoundSql.Proofs.Joined
import BoundSql.Proofs.Layout.Query

/-!
# Arms of recursive queries

Each arm of a recursive query is a query of its own. The first one has the clauses of the whole
query except for its joins; the second one repeats the select list and the grouping under another
alias. An alias may change which columns have text, but a column binds nothing: so what a clause
binds does not depend on the alias around it, in any dialect, and the values of the repeated
clauses are bound twice.
-/
namespace BoundSql

open Fragment

/-! ## Values under another alias -/

section
variable (d : Dialect) (a b : Option String)

theorem Grouping.bindings_clause (groups : List Grouping) :
    (Grouping.clause ⟨d, a⟩ groups).bindings = (Grouping.clause ⟨d, b⟩ groups).bindings := by
  have hkept : ∀ g : Grouping, (g.sql ⟨d, a⟩).kept = (g.sql ⟨d, b⟩).kept := by
    intro g
    cases g with
    | column c => rw [Grouping.sql, Grouping.sql, kept_ofText, kept_ofText]
    | raw r => rfl
  simp only [Grouping.clause, bindings_surrounded, bindings_joined, List.flatMap_map, hkept]

/-- A comparison always has text. -/
theorem Expr.kept_comparisonSql (c : ColumnName) (op : Operator) (value : Value) :
    (Expr.comparisonSql ⟨d, a⟩ c op value).map kept =
      (Expr.comparisonSql ⟨d, b⟩ c op value).map kept := by
  have hbound : ∀ left : String,
      ((ofText (left ++ " " ++ op.keyword ++ " ")).pushBound d.placeholder value).kept =
        [value.binding] := by
    intro left
    apply kept_of_not_isEmpty
    simp [pushBound, isEmpty, ofText]
  unfold Expr.comparisonSql
  cases op
  case is | isNot =>
    cases Expr.literal? value with
    | none => rfl
    | some literal => exact congrArg Except.ok ((kept_ofText _).trans (kept_ofText _).symm)
  case isNull | isNotNull => exact congrArg Except.ok ((kept_ofText _).trans (kept_ofText _).symm)
  all_goals exact congrArg Except.ok ((hbound _).trans (hbound _).symm)

theorem Expr.kept_betweenSql (c : ColumnName) (low high : Value) (negated : Bool) :
    (Expr.betweenSql ⟨d, a⟩ c low high negated).kept = [low.binding, high.binding] := by
  apply kept_of_not_isEmpty
  simp [Expr.betweenSql, pushBound, push, isEmpty, ofText]

theorem Expr.kept_oneOfSql (c : ColumnName) (values : List Value) (negated : Bool) :
    (Expr.oneOfSql ⟨d, a⟩ c values negated).kept = values.map Value.binding := by
  apply kept_of_not_isEmpty
  simp [Expr.oneOfSql, isEmpty, bound]

mutual

/-- What an expression brings into a list does not depend on the alias around it. -/
theorem Expr.kept_sql : (e : Expr) → (e.sql ⟨d, a⟩).map kept = (e.sql ⟨d, b⟩).map kept
  | .raw r | .rawColumn r => by
    rw [Expr.sql, Expr.sql]
  | .column c label | .aggregate function c label | .datePart part c label => by
    rw [Expr.sql, Expr.sql]
    exact congrArg Except.ok ((kept_ofText _).trans (kept_ofText _).symm)
  | .comparison c op value => by
    rw [Expr.sql, Expr.sql, Expr.kept_comparisonSql d a b]
  | .between c low high negated => by
    rw [Expr.sql, Expr.sql]
    exact congrArg Except.ok ((Expr.kept_betweenSql ..).trans (Expr.kept_betweenSql ..).symm)
  | .oneOf c values negated => by
    rw [Expr.sql, Expr.sql]
    exact congrArg Except.ok ((Expr.kept_oneOfSql ..).trans (Expr.kept_oneOfSql ..).symm)
  | .group filter => by
    rw [Expr.sql, Expr.sql]
    refine map_bind_congr (Filter.kept_sql filter) fun f g hfg => congrArg Except.ok ?_
    rw [kept_surrounded, kept_surrounded, hfg]
  | .existence query negated => by
    rw [Expr.sql, Expr.sql]

theorem Expr.kept_sqls : (es : List Expr) →
    (Expr.sqls ⟨d, a⟩ es).map (List.map kept) = (Expr.sqls ⟨d, b⟩ es).map (List.map kept)
  | [] => by
    rw [Expr.sqls, Expr.sqls]
  | e :: rest => by
    rw [Expr.sqls, Expr.sqls]
    refine map_bind_congr (Expr.kept_sql e) fun f g hfg => ?_
    refine map_bind_congr (Expr.kept_sqls rest) fun fs gs hfgs => congrArg Except.ok ?_
    rw [List.map_cons, List.map_cons, hfg, hfgs]

theorem Filter.kept_sql : (f : Filter) → (f.sql ⟨d, a⟩).map kept = (f.sql ⟨d, b⟩).map kept
  | ⟨terms, connective⟩ => by
    rw [Filter.sql, Filter.sql]
    refine map_bind_congr (Expr.kept_sqls terms) fun fs gs hfgs => congrArg Except.ok ?_
    rw [kept_joined, kept_joined, bindings_joined, bindings_joined, List.flatMap_def,
      List.flatMap_def, hfgs]

end

/-- A select list binds the same values under every alias. -/
theorem Expr.bindings_columnsSql (columns : List Expr) :
    (Expr.columnsSql ⟨d, a⟩ columns).map bindings =
      (Expr.columnsSql ⟨d, b⟩ columns).map bindings := by
  refine map_bind_congr (Expr.kept_sqls d a b columns) fun fs gs hfgs => congrArg Except.ok ?_
  rw [bindings_joined, bindings_joined, List.flatMap_def, List.flatMap_def, hfgs]

end

/-! ## Arms on their own -/

namespace Select

/-- The first arm as a query of its own. -/
def initialQuery (q : Select) : Select := { q with joins := [], recursion := none }

/-- The second arm as a query of its own; an empty select list becomes the wildcard. -/
def memberQuery (q : Select) (r : Recursion) : Select :=
  { q with
    tableAlias := some Recursion.memberAlias
    columns := if q.columns.isEmpty then [.star] else q.columns
    filter := .empty
    joins := [r.join]
    sort := none
    limits := .none
    recursion := none }

theorem columnsSql_eq_ok_iff {s : Scope} {columns : List Expr} {f : Fragment} :
    Expr.columnsSql s columns = .ok f ↔
      ∃ rendered, Expr.sqls s columns = .ok rendered ∧ .joined "," rendered = f := by
  simp only [Expr.columnsSql, Except.bind_eq_ok, pure, Except.pure, Except.ok.injEq]

/-- The select list of the second arm, as it is rendered in its own query. -/
theorem columnsSql_memberColumns {s : Scope} {columns : List Expr} {rendered : List Fragment}
    (h : Expr.sqls s columns = .ok rendered) :
    Expr.columnsSql s (if columns.isEmpty then [.star] else columns) =
      .ok (Recursion.memberColumns s columns rendered) := by
  cases columns with
  | cons e rest => exact columnsSql_eq_ok_iff.2 ⟨rendered, h, rfl⟩
  | nil =>
    refine columnsSql_eq_ok_iff.2 ⟨[.ofText (s.column (.plain "*"))], rfl, ?_⟩
    cases htext : (ofText (s.column (.plain "*"))).isEmpty with
    | false => exact joined_cons "," _ [] htext
    | true =>
      rw [joined_cons_of_isEmpty "," [] htext, joined_nil, Fragment.empty]
      exact congrArg ofText (isEmpty_iff.1 htext).symm

/-- A query that is no recursion is written if its table, its select list and its filter are. -/
theorem sql_of_clauses {d : Dialect} {q : Select} {columns predicates : Fragment}
    (hr : q.recursion = none) (ht : Target.resolve q.table q.schema q.tableAlias = .ok q.target)
    (hdistinct : (q.distinct && !Expr.nameColumns q.columns) = false)
    (hcolumns : Expr.columnsSql (q.target.scope d) q.columns = .ok columns)
    (hfilter : q.filter.sql (q.target.scope d) = .ok predicates) :
    q.sql d = .ok (Body.sql d q.target
      ⟨q.distinct, columns, q.joins, predicates, q.groups, q.limits, q.sort⟩) := by
  obtain ⟨rendered, hrendered, rfl⟩ := columnsSql_eq_ok_iff.1 hcolumns
  generalize q.target = t at *
  cases q
  obtain rfl := hr
  simp only at ht hdistinct hrendered hfilter
  rw [sql, ht]
  simp only [bind, Except.bind, pure, Except.pure, hdistinct, hrendered, hfilter,
    Bool.false_eq_true, if_false]

/-- The first arm with its clauses rendered. -/
def initialBody (q : Select) (columns predicates : Fragment) : Body :=
  ⟨q.distinct, columns, [], predicates, q.groups, q.limits, q.sort⟩

/-- The second arm with its select list rendered. -/
def memberBody (d : Dialect) (q : Select) (r : Recursion) (rendered : List Fragment) : Body :=
  ⟨q.distinct, Recursion.memberColumns (q.memberTarget.scope d) q.columns rendered, [r.join],
    .empty, q.groups, .none, none⟩

/-- What has been rendered once a recursive query is written. -/
theorem clauses_of_sql {d : Dialect} {q : Select} {r : Recursion} {f : Fragment}
    (hr : q.recursion = some r) (h : q.sql d = .ok f) :
    Target.resolve q.table q.schema q.tableAlias = .ok q.target ∧
      (q.distinct && !Expr.nameColumns q.columns) = false ∧
      ∃ columns predicates again,
        Expr.columnsSql (q.target.scope d) q.columns = .ok columns ∧
        q.filter.sql (q.target.scope d) = .ok predicates ∧
        Expr.sqls (q.memberTarget.scope d) q.columns = .ok again ∧
        f = Recursion.sql ((q.initialBody columns predicates).sql d q.target)
          ((q.memberBody d r again).sql d q.memberTarget) := by
  cases q
  obtain rfl := hr
  rw [sql] at h
  obtain ⟨t, ht, hrest⟩ := Except.bind_eq_ok.1 h
  obtain rfl := Target.eq_of_resolve ht
  obtain ⟨hdistinct, hrest⟩ := Except.guard_eq_ok.1 hrest
  obtain ⟨⟨⟩, -, hrest⟩ := Except.bind_eq_ok.1 hrest
  obtain ⟨rendered, hrendered, hrest⟩ := Except.bind_eq_ok.1 hrest
  obtain ⟨predicates, hpredicates, hrest⟩ := Except.bind_eq_ok.1 hrest
  obtain ⟨again, hagain, hf⟩ := Except.bind_eq_ok.1 hrest
  exact ⟨ht, Bool.eq_false_iff.2 hdistinct, _, predicates, again,
    columnsSql_eq_ok_iff.2 ⟨rendered, hrendered, rfl⟩, hpredicates, hagain,
    (Except.ok.inj hf).symm⟩

/-- The alias of the second arm takes the place of the query's own. -/
theorem resolve_memberQuery {q : Select} (r : Recursion)
    (h : Target.resolve q.table q.schema q.tableAlias = .ok q.target) :
    Target.resolve (q.memberQuery r).table (q.memberQuery r).schema (q.memberQuery r).tableAlias =
      .ok (q.memberQuery r).target := by
  obtain ⟨htable, hschema, -, hblank, hblankSchema, -⟩ := Target.resolve_eq_ok_iff.1 h
  have halias : (some Recursion.memberAlias).any Text.isBlank = false := by decide
  exact Target.resolve_eq_ok_iff.2 ⟨htable, hschema, rfl, hblank, hblankSchema, halias⟩

/-- The second arm may be distinct if the query may. -/
theorem nameColumns_memberQuery {q : Select} (r : Recursion)
    (h : (q.distinct && !Expr.nameColumns q.columns) = false) :
    ((q.memberQuery r).distinct && !Expr.nameColumns (q.memberQuery r).columns) = false := by
  rw [memberQuery]
  cases hcolumns : q.columns with
  | cons e rest => simpa [hcolumns] using h
  | nil =>
    have hdistinct : q.distinct = false := by simpa [hcolumns, Expr.nameColumns] using h
    simp [hdistinct]

/-! ## Values of the arms -/

/-- Clauses bind their values in the order in which they are written. -/
theorem Body.bindings_sql (d : Dialect) (t : Target) (b : Body) :
    (b.sql d t).bindings = b.columns.kept ++ (Join.clause (t.scope d) b.joins).bindings ++
      b.filter.bindings ++ (Grouping.clause (t.scope d) b.groups).bindings ++
      (b.limits.clause (t.scope d)).bindings ++ (SortKey.clause (t.scope d) b.sort).bindings := by
  have hcolumns : b.columnList.bindings = b.columns.kept := by
    unfold columnList kept
    split <;> simp
  simp [sql, hcolumns]

section
variable {d : Dialect} {q : Select} {columns : Fragment}
  (hcolumns : Expr.columnsSql (q.target.scope d) q.columns = .ok columns)
include hcolumns

theorem bindings_initialBody (predicates : Fragment) :
    ((q.initialBody columns predicates).sql d q.target).bindings =
      columns.bindings ++ predicates.bindings ++
        (Grouping.clause (q.target.scope d) q.groups).bindings ++
        (q.limits.clause (q.target.scope d)).bindings ++
        (SortKey.clause (q.target.scope d) q.sort).bindings := by
  have hkept : columns.kept = columns.bindings := by
    obtain ⟨rendered, -, rfl⟩ := columnsSql_eq_ok_iff.1 hcolumns
    exact kept_joined "," rendered
  have hjoins : (Join.clause (q.target.scope d) []).bindings = [] := bindings_joined " " []
  rw [Body.bindings_sql, initialBody, hkept, hjoins, List.append_nil]

/-- The second arm binds in its select list what the first one binds there. -/
theorem kept_memberColumns {again : List Fragment}
    (hagain : Expr.sqls (q.memberTarget.scope d) q.columns = .ok again) :
    (Recursion.memberColumns (q.memberTarget.scope d) q.columns again).kept =
      columns.bindings := by
  have hsame := Expr.bindings_columnsSql d q.target.tableAlias q.memberTarget.tableAlias q.columns
  change (Expr.columnsSql (q.target.scope d) q.columns).map bindings =
    (Expr.columnsSql (q.memberTarget.scope d) q.columns).map bindings at hsame
  rw [hcolumns, columnsSql_eq_ok_iff.2 ⟨again, hagain, rfl⟩] at hsame
  rw [Except.ok.inj hsame, Recursion.memberColumns]
  cases hempty : q.columns.isEmpty with
  | false => exact kept_joined "," again
  | true =>
    rw [List.isEmpty_iff.1 hempty] at hagain
    obtain rfl : [] = again := Except.ok.inj hagain
    rw [if_pos rfl, kept_ofText, joined_nil]
    rfl

theorem bindings_memberBody (r : Recursion) {again : List Fragment}
    (hagain : Expr.sqls (q.memberTarget.scope d) q.columns = .ok again) :
    ((q.memberBody d r again).sql d q.memberTarget).bindings =
      columns.bindings ++ (Grouping.clause (q.target.scope d) q.groups).bindings := by
  have hgroups := Grouping.bindings_clause d q.memberTarget.tableAlias q.target.tableAlias q.groups
  have hjoins : (Join.clause (q.memberTarget.scope d) [r.join]).bindings = [] := rfl
  rw [Body.bindings_sql, memberBody, hjoins, kept_memberColumns hcolumns hagain]
  simp [Target.scope, hgroups, Limits.clause, SortKey.clause, Limits.none]

end

/-- Joins do not count in a recursive query. -/
theorem sql_joins (d : Dialect) {q : Select} {r : Recursion} (hr : q.recursion = some r)
    (joins : List Join) : Select.sql d { q with joins := joins } = q.sql d := by
  cases q
  obtain rfl := hr
  rw [sql, sql]

/-- Both arms of a recursive query are queries of their own. What the select list and the grouping
bind is bound in both of them, what the other clauses bind in the first one only, and what the
joins of the query bind in none. -/
theorem sql_recursion {d : Dialect} {q : Select} {r : Recursion} {f : Fragment}
    (hr : q.recursion = some r) (h : q.sql d = .ok f) :
    let s := q.target.scope d
    ∃ columns predicates initial member : Fragment,
      Expr.columnsSql s q.columns = .ok columns ∧ q.filter.sql s = .ok predicates ∧
      initial = (q.initialBody columns predicates).sql d q.target ∧
      q.initialQuery.sql d = .ok initial ∧ (q.memberQuery r).sql d = .ok member ∧
      f.text = "WITH RECURSIVE recursive_cte AS ( " ++ initial.text ++ " UNION ALL " ++
        member.text ++ " ) SELECT * FROM recursive_cte" ∧
      initial.bindings = columns.bindings ++ predicates.bindings ++
        (Grouping.clause s q.groups).bindings ++ (q.limits.clause s).bindings ++
        (SortKey.clause s q.sort).bindings ∧
      f.bindings = columns.bindings ++ predicates.bindings ++
        (Grouping.clause s q.groups).bindings ++ (q.limits.clause s).bindings ++
        (SortKey.clause s q.sort).bindings ++ columns.bindings ++
        (Grouping.clause s q.groups).bindings ∧
      ∀ joins, Select.sql d { q with joins := joins } = .ok f := by
  intro s
  obtain ⟨ht, hdistinct, columns, predicates, again, hcolumns, hpredicates, hagain, rfl⟩ :=
    clauses_of_sql hr h
  have hinitial := sql_of_clauses (q := q.initialQuery) rfl ht hdistinct hcolumns hpredicates
  have hmember := sql_of_clauses (d := d) (q := q.memberQuery r) rfl (resolve_memberQuery r ht)
    (nameColumns_memberQuery r hdistinct) (columnsSql_memberColumns hagain) rfl
  have hfirst := bindings_initialBody hcolumns predicates
  have hsecond := bindings_memberBody hcolumns r hagain
  refine ⟨columns, predicates, _, _, hcolumns, hpredicates, rfl, hinitial, hmember, rfl, hfirst,
    ?_, fun joins => (sql_joins d hr joins).trans h⟩
  rw [Recursion.sql]
  simp only [bindings_append, bindings_ofText, List.nil_append, List.append_nil, hfirst, hsecond,
    List.append_assoc, s]

/-- Posts of a thread, with a value in every clause and a subquery in the select list. -/
def threadPosts : Select :=
  { ofTable "posts" with
    tableAlias := some "p"
    columns :=
      [.ofColumn (.plain "id"), .rawColumn ⟨"depth + ?", [.int 1]⟩,
        .existence
          { ofTable "flags" with
            filter := ⟨[.comparison (.plain "weight") .gt (.int 2)], .and⟩ }
          true]
    filter :=
      ⟨[.group ⟨[.group .empty, .comparison (.plain "kind") .eq (.list [.int 3, .int 4])], .or⟩,
        .comparison (.plain "parent") .isNull .null], .and⟩
    joins := [.raw .left ⟨"users ON age > ?", [.int 18]⟩]
    groups := [.column (.plain "id"), .raw ⟨"kind + ?", [.int 5]⟩]
    sort := some ⟨"id", .desc⟩
    limits := ⟨6, 7⟩
    recursion := some ⟨"parent", "id"⟩ }

set_option maxRecDepth 4000 in
theorem bindings_threadPosts : (threadPosts.layout.write .mysql).bindings =
    [.int 1, .int 2, .string "3,4", .int 5, .uint 6, .uint 7, .string "id", .string "DESC",
      .int 1, .int 2, .int 5] := by
  rfl

theorem sql_recursion_threadPosts :
    threadPosts.recursion = some ⟨"parent", "id"⟩ ∧
      ∃ f columns predicates initial member : Fragment, threadPosts.sql .mysql = .ok f ∧
        f.bindings = [.int 1, .int 2, .string "3,4", .int 5, .uint 6, .uint 7, .string "id",
          .string "DESC", .int 1, .int 2, .int 5] ∧
        threadPosts.initialQuery.sql .mysql = .ok initial ∧
        (threadPosts.memberQuery ⟨"parent", "id"⟩).sql .mysql = .ok member ∧
        f.text = "WITH RECURSIVE recursive_cte AS ( " ++ initial.text ++ " UNION ALL " ++
          member.text ++ " ) SELECT * FROM recursive_cte" ∧
        initial = (threadPosts.initialBody columns predicates).sql .mysql threadPosts.target := by
  have hsql : threadPosts.sql .mysql = .ok (threadPosts.layout.write .mysql) :=
    (Query.sql_eq_ok_iff Dialect.visible_mysql (q := .select threadPosts)).2 ⟨rfl, rfl⟩
  obtain ⟨columns, predicates, initial, member, -, -, hbody, hinitial, hmember, htext, -⟩ :=
    sql_recursion (q := threadPosts) rfl hsql
  exact ⟨rfl, _, columns, predicates, initial, member, hsql, bindings_threadPosts,
    hinitial, hmember, htext, hbody⟩

end Select
end BoundSql
