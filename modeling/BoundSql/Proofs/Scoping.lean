import BoundSql.Proofs.Subquery

/-!
# Scopes of recursive queries

Each arm of a recursive query has a scope of its own: the name that its table goes by and the names
of what it joins. A column without a qualifier takes the alias of its arm, so it is in scope in
both. A qualifier that is written out stays as it is when the second arm repeats the select list
and the grouping; the alias of the query, which the first arm introduces, does not exist there.
-/
namespace BoundSql

/-! ## Qualifiers of a layout -/

/-- The qualifier in front of a column. -/
def Piece.qualifier? : Piece → Option String
  | .column qualifier _ => qualifier
  | _ => none

namespace Layout

/-- The qualifiers that a layout writes, in their order; those in raw SQL are the caller's. -/
def qualifiers (l : Layout) : List String := l.filterMap Piece.qualifier?

@[simp] theorem qualifiers_nil : qualifiers [] = [] := rfl

@[simp] theorem qualifiers_cons (p : Piece) (l : Layout) :
    qualifiers (p :: l) = p.qualifier?.toList ++ qualifiers l := by
  cases h : p.qualifier? <;> simp [qualifiers, h]

@[simp] theorem qualifiers_append (k l : Layout) :
    qualifiers (k ++ l) = qualifiers k ++ qualifiers l := List.filterMap_append

@[simp] theorem qualifiers_headed (before : String) (l : Layout) :
    qualifiers (headed before l) = qualifiers l := by
  cases l <;> simp [headed, Piece.qualifier?]

@[simp] theorem qualifiers_enclosed (before after : String) (l : Layout) :
    qualifiers (enclosed before after l) = qualifiers l := by
  cases l <;> simp [enclosed, Piece.qualifier?]

@[simp] theorem qualifiers_labelled (l : Layout) (label : Option String) :
    qualifiers (labelled l label) = qualifiers l := by
  cases label <;> simp [labelled, Piece.qualifier?]

/-- A column always shows. -/
theorem qualifiers_of_not_visible {l : Layout} (h : isVisible l = false) : qualifiers l = [] := by
  refine List.filterMap_eq_nil_iff.2 fun p hp => ?_
  have hhidden : p.isVisible = false := by
    simpa using List.any_eq_false.1 h p hp
  cases p with
  | column qualifier name => cases hhidden
  | words | name | literal | allRows | value | count | raw => rfl

theorem qualifiers_intercalate (separator : String) (parts : List Layout) :
    qualifiers (List.intercalate [.words separator] parts) = parts.flatMap qualifiers := by
  induction parts with
  | nil => rfl
  | cons l rest ih =>
    cases rest with
    | nil => simp
    | cons m rest =>
      rw [List.intercalate_cons_cons, qualifiers_append, qualifiers_append, ih]
      simp [Piece.qualifier?]

@[simp] theorem qualifiers_joined (separator : String) (parts : List Layout) :
    qualifiers (joined separator parts) = parts.flatMap qualifiers := by
  induction parts with
  | nil => rfl
  | cons l rest ih =>
    rw [joined_cons, List.flatMap_cons, ← ih]
    split
    · split
      · simp [Piece.qualifier?]
      · rename_i hrest
        rw [qualifiers_of_not_visible (Bool.eq_false_iff.2 hrest), List.append_nil]
    · rename_i hl
      rw [qualifiers_of_not_visible (Bool.eq_false_iff.2 hl), List.nil_append]

end Layout

/-! ## Columns that a query writes -/

mutual

/-- The columns that an expression writes, other than those of its queries. An aggregate writes
the wildcard alone. -/
def Expr.columnNames : Expr → List ColumnName
  | .column c _ | .datePart _ c _ | .comparison c _ _ | .between c _ _ _ | .oneOf c _ _ => [c]
  | .aggregate _ c _ => if c.isWildcard then [] else [c]
  | .group filter => filter.columnNames
  | .raw _ | .rawColumn _ | .existence _ _ => []

def Expr.listColumnNames : List Expr → List ColumnName
  | [] => []
  | e :: rest => e.columnNames ++ Expr.listColumnNames rest

def Filter.columnNames : Filter → List ColumnName
  | ⟨terms, _⟩ => Expr.listColumnNames terms

end

def Grouping.columnNames : Grouping → List ColumnName
  | .column c => [c]
  | .raw _ => []

namespace Select

/-- The columns that both arms of a recursive query write. -/
def repeatedColumns (q : Select) : List ColumnName :=
  Expr.listColumnNames q.columns ++ q.groups.flatMap Grouping.columnNames

def columnNames (q : Select) : List ColumnName :=
  Expr.listColumnNames q.columns ++ q.filter.columnNames ++ q.groups.flatMap Grouping.columnNames

end Select

/-- The qualifiers of columns that stand under an alias. -/
def ColumnName.qualifiers (tableAlias : Option String) (cs : List ColumnName) : List String :=
  cs.filterMap fun c => c.qualifier.or tableAlias

@[simp] theorem ColumnName.qualifiers_nil (tableAlias : Option String) :
    ColumnName.qualifiers tableAlias [] = [] := rfl

@[simp] theorem ColumnName.qualifiers_append (tableAlias : Option String)
    (cs ds : List ColumnName) :
    ColumnName.qualifiers tableAlias (cs ++ ds) =
      ColumnName.qualifiers tableAlias cs ++ ColumnName.qualifiers tableAlias ds :=
  List.filterMap_append

theorem ColumnName.mem_qualifiers {a x : String} {cs : List ColumnName} :
    x ∈ ColumnName.qualifiers (some a) cs ↔ ∃ c ∈ cs, c.qualifier.getD a = x := by
  rw [ColumnName.qualifiers, List.mem_filterMap]
  refine exists_congr fun c => and_congr_right fun _ => ?_
  cases c.qualifier <;> simp

open Layout

namespace Expr
variable (tableAlias : Option String)

@[simp] theorem qualifiers_columnLayout (c : ColumnName) :
    (columnLayout tableAlias c).qualifiers = ColumnName.qualifiers tableAlias [c] := by
  cases h : c.qualifier.or tableAlias <;>
    simp [columnLayout, ColumnName.qualifiers, Piece.qualifier?, h]

theorem qualifiers_aggregateLayout (function : Aggregate) (c : ColumnName) :
    (aggregateLayout tableAlias function c).qualifiers =
      ColumnName.qualifiers tableAlias (if c.isWildcard then [] else [c]) := by
  cases h : c.isWildcard <;> simp [aggregateLayout, h, Piece.qualifier?]

theorem qualifiers_comparisonLayout (c : ColumnName) (op : Operator) (value : Value) :
    (comparisonLayout tableAlias c op value).qualifiers =
      ColumnName.qualifiers tableAlias [c] := by
  have hoperand : (operandLayout op value).qualifiers = [] := by
    unfold operandLayout
    split
    · split <;> rfl
    · split <;> rfl
    · rfl
    · rfl
    · rfl
  simp [comparisonLayout, hoperand, Piece.qualifier?]

theorem qualifiers_negationLayout (negated : Bool) :
    (negationLayout negated).qualifiers = [] := by
  cases negated <;> rfl

theorem qualifiers_values (values : List Value) :
    Layout.qualifiers
      (List.intercalate [.words ","] (values.map fun v => [Piece.value v])) = [] := by
  rw [qualifiers_intercalate, List.flatMap_eq_nil_iff]
  intro l hl
  obtain ⟨v, -, rfl⟩ := List.mem_map.1 hl
  rfl

end Expr

mutual

/-- Without queries in it, an expression writes its own columns under the alias around it. -/
theorem Expr.qualifiers_layout (tableAlias : Option String) : (e : Expr) → e.subqueries = [] →
    (e.layout tableAlias).qualifiers = ColumnName.qualifiers tableAlias e.columnNames
  | .raw r, _ | .rawColumn r, _ => by
    rw [Expr.layout, Expr.columnNames]
    rfl
  | .column c label, _ => by
    simp [Expr.layout, Expr.columnNames]
  | .aggregate function c label, _ => by
    simp [Expr.layout, Expr.columnNames, Expr.qualifiers_aggregateLayout]
  | .datePart part c label, _ => by
    simp [Expr.layout, Expr.columnNames, Expr.datePartLayout, Piece.qualifier?]
  | .comparison c op value, _ => by
    rw [Expr.layout, Expr.columnNames, Expr.qualifiers_comparisonLayout]
  | .between c low high negated, _ => by
    simp [Expr.layout, Expr.columnNames, Expr.betweenLayout, Expr.qualifiers_negationLayout,
      Piece.qualifier?]
  | .oneOf c values negated, _ => by
    simp [Expr.layout, Expr.columnNames, Expr.oneOfLayout, Expr.qualifiers_negationLayout,
      Expr.qualifiers_values, Piece.qualifier?]
  | .group filter, h => by
    rw [Expr.subqueries] at h
    rw [Expr.layout, Expr.columnNames, Layout.qualifiers_enclosed,
      Filter.qualifiers_layout tableAlias filter h]
  | .existence query negated, h => by
    rw [Expr.subqueries] at h
    cases h

theorem Expr.qualifiers_layouts (tableAlias : Option String) : (es : List Expr) →
    Expr.listSubqueries es = [] →
    (Expr.layouts tableAlias es).flatMap Layout.qualifiers =
      ColumnName.qualifiers tableAlias (Expr.listColumnNames es)
  | [], _ => rfl
  | e :: rest, h => by
    rw [Expr.listSubqueries] at h
    obtain ⟨he, hrest⟩ := List.append_eq_nil_iff.1 h
    rw [Expr.layouts, Expr.listColumnNames, List.flatMap_cons, ColumnName.qualifiers_append,
      Expr.qualifiers_layout tableAlias e he, Expr.qualifiers_layouts tableAlias rest hrest]

theorem Filter.qualifiers_layout (tableAlias : Option String) : (f : Filter) →
    f.subqueries = [] →
    (f.layout tableAlias).qualifiers = ColumnName.qualifiers tableAlias f.columnNames
  | ⟨terms, connective⟩, h => by
    rw [Filter.subqueries] at h
    rw [Filter.layout, Filter.columnNames, Layout.qualifiers_joined,
      Expr.qualifiers_layouts tableAlias terms h]

end

theorem Grouping.qualifiers_clauseLayout (tableAlias : Option String) (groups : List Grouping) :
    (Grouping.clauseLayout tableAlias groups).qualifiers =
      ColumnName.qualifiers tableAlias (groups.flatMap Grouping.columnNames) := by
  rw [Grouping.clauseLayout, Layout.qualifiers_headed, Layout.qualifiers_joined]
  induction groups with
  | nil => rfl
  | cons g rest ih =>
    have hg : (g.layout tableAlias).qualifiers =
        ColumnName.qualifiers tableAlias g.columnNames := by
      cases g with
      | column c => exact Expr.qualifiers_columnLayout tableAlias c
      | raw r => rfl
    rw [List.map_cons, List.flatMap_cons, List.flatMap_cons, ColumnName.qualifiers_append, ih, hg]

/-! ## Arms -/

/-- The name by which the rows of a table are known. -/
def Target.rowName (t : Target) : String := t.tableAlias.getD t.table

/-- Nothing is known about the names in raw SQL. -/
def Join.rowNames : Join → List String
  | .table _ joined tableAlias _ _ => [tableAlias.getD joined]
  | .raw .. => []

namespace Select.Arm

/-- The names that an arm introduces behind `FROM` and its joins. -/
def rowNames (t : Target) (a : Arm) : List String := t.rowName :: a.joins.flatMap Join.rowNames

/-- Every qualifier that an arm writes is a name that it introduces. -/
def IsScoped (t : Target) (a : Arm) : Prop := ∀ x ∈ (a.layout t).qualifiers, x ∈ a.rowNames t

theorem qualifiers_layout (t : Target) (a : Arm) :
    (a.layout t).qualifiers =
      a.columns.qualifiers ++ (a.joins.flatMap fun j => j.layout.qualifiers) ++
        a.filter.qualifiers ++
        ColumnName.qualifiers t.tableAlias (a.groups.flatMap Grouping.columnNames) := by
  have hcolumns : a.columnList.qualifiers = a.columns.qualifiers := by
    unfold columnList
    split
    · rename_i h
      rw [List.isEmpty_iff.1 h]
      rfl
    · rfl
  have htarget : t.layout.qualifiers = [] := by
    rw [Target.layout, Layout.qualifiers_labelled, Target.nameLayout]
    split <;> rfl
  have hjoins : (Join.clauseLayout a.joins).qualifiers =
      a.joins.flatMap fun j => j.layout.qualifiers := by
    rw [Join.clauseLayout, Layout.qualifiers_joined, List.flatMap_map]
  have hlimits : a.limits.layout.qualifiers = [] := by
    unfold Limits.layout
    split <;> split <;> rfl
  have hsort : (SortKey.clauseLayout a.sort).qualifiers = [] := by
    cases a.sort <;> rfl
  simp [layout, hcolumns, htarget, hjoins, hlimits, hsort, Grouping.qualifiers_clauseLayout,
    Piece.qualifier?]

end Select.Arm

namespace Select

theorem subqueries_eq_nil {q : Select} (h : q.subqueries = []) :
    Expr.listSubqueries q.columns = [] ∧ q.filter.subqueries = [] := by
  cases q
  rw [subqueries] at h
  exact List.append_eq_nil_iff.1 h

theorem qualifiers_initialArm {q : Select} (h : q.subqueries = []) :
    (q.initialArm.layout q.target).qualifiers =
      ColumnName.qualifiers q.tableAlias q.columnNames := by
  obtain ⟨hcolumns, hfilter⟩ := subqueries_eq_nil h
  rw [Arm.qualifiers_layout]
  simp [initialArm, arm, target, columnNames, Expr.qualifiers_layouts _ _ hcolumns,
    Filter.qualifiers_layout _ _ hfilter]

/-- The second arm writes both of its own names, whatever columns it repeats. -/
theorem mem_qualifiers_memberArm {q : Select} (r : Recursion) (h : q.subqueries = [])
    (x : String) :
    x ∈ ((q.memberArm r).layout q.memberTarget).qualifiers ↔
      x ∈ ColumnName.qualifiers (some Recursion.memberAlias) q.repeatedColumns ∨
        x ∈ [Recursion.memberAlias, Recursion.anchorAlias] := by
  obtain ⟨hcolumns, -⟩ := subqueries_eq_nil h
  have hkeys : r.join.layout.qualifiers = [Recursion.memberAlias, Recursion.anchorAlias] := rfl
  have hlist : (Recursion.memberLayout
      (Expr.layouts (some Recursion.memberAlias) q.columns)).qualifiers =
        if q.columns.isEmpty then [Recursion.memberAlias]
        else ColumnName.qualifiers (some Recursion.memberAlias)
          (Expr.listColumnNames q.columns) := by
    rw [Recursion.memberLayout, ← Expr.isEmpty_layouts]
    split
    · rfl
    · rw [Layout.qualifiers_joined, Expr.qualifiers_layouts _ _ hcolumns]
  rw [Arm.qualifiers_layout]
  simp only [memberArm, Recursion.memberArm, memberTarget, hlist, hkeys, repeatedColumns,
    List.flatMap_cons, List.flatMap_nil, List.append_nil, Layout.qualifiers_nil, List.mem_append,
    ColumnName.qualifiers_append]
  cases q.columns with
  | nil =>
    -- the wildcard stands under the alias, which the join's keys name anyway
    rw [Expr.listColumnNames, List.isEmpty_nil, if_pos rfl, ColumnName.qualifiers_nil]
    grind
  | cons e rest =>
    rw [List.isEmpty_cons, if_neg Bool.false_ne_true]
    grind

@[simp] theorem rowNames_initialArm (q : Select) :
    q.initialArm.rowNames q.target = [q.target.rowName] := rfl

/-- If every qualifier that a recursive query writes out is its own alias, its first arm is in
scope. Its second arm is in scope only if no column that it repeats has a qualifier, unless the
alias happens to be one of those that the second arm introduces. -/
theorem isScoped_arms {d : Dialect} (hd : d.Visible) {q : Select} {r : Recursion} {a : String}
    {f : Fragment} (hr : q.recursion = some r) (ha : q.tableAlias = some a)
    (hs : q.subqueries = []) (hq : ∀ c ∈ q.columnNames, ∀ x ∈ c.qualifier, x = a)
    (h : q.sql d = .ok f) :
    f = Recursion.sql (write d (q.initialArm.layout q.target))
        (write d ((q.memberArm r).layout q.memberTarget)) ∧
      q.initialArm.IsScoped q.target ∧
      ((q.memberArm r).IsScoped q.memberTarget ↔
        a ∈ [Recursion.memberAlias, Recursion.anchorAlias] ∨
          ∀ c ∈ q.repeatedColumns, c.qualifier = none) := by
  have hrepeated : ∀ c ∈ q.repeatedColumns, ∀ x ∈ c.qualifier, x = a := by
    intro c hc
    refine hq c ?_
    simp only [repeatedColumns, columnNames, List.mem_append] at hc ⊢
    exact hc.imp_left .inl
  refine ⟨?_, ?_, ?_, ?_⟩
  · obtain ⟨-, rfl⟩ := (Query.sql_eq_ok_iff hd (q := .select q)).1 h
    rw [Query.layout, layout_eq_arms hr, Recursion.sql_eq]
  · intro x hx
    rw [qualifiers_initialArm hs, ha, ColumnName.mem_qualifiers] at hx
    obtain ⟨c, hc, rfl⟩ := hx
    have hname : q.target.rowName = a := by simp [Target.rowName, target, ha]
    rw [rowNames_initialArm, hname, List.mem_singleton]
    cases hqualifier : c.qualifier with
    | none => rfl
    | some y => exact hq c hc y hqualifier
  · intro hscoped
    by_cases hplain : ∀ c ∈ q.repeatedColumns, c.qualifier = none
    · exact .inr hplain
    · left
      obtain ⟨c, hc⟩ := Classical.not_forall.1 hplain
      obtain ⟨hc, hqualifier⟩ := Classical.not_imp.1 hc
      obtain ⟨y, hy⟩ := Option.ne_none_iff_exists'.1 hqualifier
      obtain rfl := hrepeated c hc y hy
      refine hscoped y ((mem_qualifiers_memberArm r hs y).2 (.inl ?_))
      exact ColumnName.mem_qualifiers.2 ⟨c, hc, by simp [hy]⟩
  · intro hnames x hx
    rcases (mem_qualifiers_memberArm r hs x).1 hx with hx | hx
    · obtain ⟨c, hc, rfl⟩ := ColumnName.mem_qualifiers.1 hx
      cases hqualifier : c.qualifier with
      | none => exact List.mem_cons_self ..
      | some y =>
        rcases hnames with hmem | hplain
        · obtain rfl := hrepeated c hc y hqualifier
          exact hmem
        · simp [hplain c hc] at hqualifier
    · exact hx

/-- Roles below those without a parent; the alias is written out in the filter alone. -/
def rolesByKind : Select :=
  { ofTable "roles" with
    schema := some "main"
    tableAlias := some "r"
    columns := [.ofColumn (.plain "kind"), .count (.qualified "x" "*")]
    filter := ⟨[.comparison (.qualified "r" "parent_id") .is .null], .and⟩
    groups := [.column (.plain "kind")]
    limits := ⟨5, 0⟩
    recursion := some ⟨"parent_id", "id"⟩ }

theorem isScoped_arms_rolesByKind :
    rolesByKind.recursion = some ⟨"parent_id", "id"⟩ ∧ rolesByKind.tableAlias = some "r" ∧
      rolesByKind.subqueries = [] ∧
      (∀ c ∈ rolesByKind.columnNames, ∀ x ∈ c.qualifier, x = "r") ∧
      ∃ f, rolesByKind.sql .mysql = .ok f ∧
        f.text = "WITH RECURSIVE recursive_cte AS ( SELECT \x60r\x60.\x60kind\x60,COUNT(*) FROM " ++
          "\x60main\x60.\x60roles\x60 as \x60r\x60 WHERE \x60r\x60.\x60parent_id\x60 IS NULL " ++
          "GROUP BY \x60r\x60.\x60kind\x60 LIMIT ? UNION ALL " ++
          "SELECT \x60$recursive$\x60.\x60kind\x60,COUNT(*) FROM " ++
          "\x60main\x60.\x60roles\x60 as \x60$recursive$\x60 INNER JOIN " ++
          "\x60recursive_cte\x60 as \x60$recursive_cte$\x60 ON " ++
          "\x60$recursive$\x60.\x60parent_id\x60 = \x60$recursive_cte$\x60.\x60id\x60 " ++
          "GROUP BY \x60$recursive$\x60.\x60kind\x60 ) SELECT * FROM recursive_cte" ∧
        f = Recursion.sql (write .mysql (rolesByKind.initialArm.layout rolesByKind.target))
          (write .mysql ((rolesByKind.memberArm ⟨"parent_id", "id"⟩).layout
            rolesByKind.memberTarget)) ∧
        rolesByKind.initialArm.IsScoped rolesByKind.target ∧
        (rolesByKind.memberArm ⟨"parent_id", "id"⟩).IsScoped rolesByKind.memberTarget := by
  have hq : ∀ c ∈ rolesByKind.columnNames, ∀ x ∈ c.qualifier, x = "r" := by decide
  have hplain : ∀ c ∈ rolesByKind.repeatedColumns, c.qualifier = none := by decide
  have hsql : rolesByKind.sql .mysql = .ok (rolesByKind.layout.write .mysql) :=
    (Query.sql_eq_ok_iff Dialect.visible_mysql (q := .select rolesByKind)).2 ⟨rfl, rfl⟩
  obtain ⟨hf, hinitial, hmember⟩ :=
    isScoped_arms Dialect.visible_mysql (q := rolesByKind) rfl rfl rfl hq hsql
  exact ⟨rfl, rfl, rfl, hq, _, hsql, by decide +kernel, hf, hinitial, hmember.2 (.inr hplain)⟩

/-- Roles under an alias that the select list writes out. -/
def qualifiedRoles : Select :=
  { ofTable "roles" with
    tableAlias := some "r"
    columns := [.ofColumn (.qualified "r" "id")]
    recursion := some ⟨"parent_id", "id"⟩ }

/-- The second arm selects a column of the alias that only the first arm introduces. -/
theorem not_isScoped_memberArm_qualifiedRoles :
    qualifiedRoles.recursion = some ⟨"parent_id", "id"⟩ ∧ qualifiedRoles.tableAlias = some "r" ∧
      qualifiedRoles.raws = [] ∧ qualifiedRoles.joins = [] ∧ qualifiedRoles.subqueries = [] ∧
      (∀ c ∈ qualifiedRoles.columnNames, c.qualifier = some "r") ∧
      (∃ f, qualifiedRoles.sql .mysql = .ok f ∧
        f.text = "WITH RECURSIVE recursive_cte AS ( " ++
          "SELECT \x60r\x60.\x60id\x60 FROM \x60roles\x60 as \x60r\x60 UNION ALL " ++
          "SELECT \x60r\x60.\x60id\x60 FROM \x60roles\x60 as \x60$recursive$\x60 INNER JOIN " ++
          "\x60recursive_cte\x60 as \x60$recursive_cte$\x60 ON " ++
          "\x60$recursive$\x60.\x60parent_id\x60 = \x60$recursive_cte$\x60.\x60id\x60 ) " ++
          "SELECT * FROM recursive_cte") ∧
      ¬ (qualifiedRoles.memberArm ⟨"parent_id", "id"⟩).IsScoped qualifiedRoles.memberTarget := by
  have hsql : qualifiedRoles.sql .mysql = .ok (qualifiedRoles.layout.write .mysql) :=
    (Query.sql_eq_ok_iff Dialect.visible_mysql (q := .select qualifiedRoles)).2 ⟨rfl, rfl⟩
  refine ⟨rfl, rfl, rfl, rfl, rfl, by decide, ⟨_, hsql, by decide +kernel⟩, ?_⟩
  intro hscoped
  have hdangling := hscoped "r" (by decide)
  revert hdangling
  decide

end Select
end BoundSql
