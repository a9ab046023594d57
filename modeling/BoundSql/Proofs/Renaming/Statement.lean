import BoundSql.Proofs.Renaming.Basic

/-!
# Renamed statements

The checks and the layout of a renamed statement are the renamed ones. A layout says something
only of a statement that passed its checks, hence of one whose table has a name.
-/
namespace BoundSql

open Layout Text

theorem Option.or_map {α β : Type} (f : α → β) (x y : Option α) :
    (x.map f).or (y.map f) = (x.or y).map f := by
  cases x <;> rfl

/-! ## Names and clauses -/

section
variable (r : String → String)

theorem Target.nameLayout_rename (t : Target) :
    (t.rename r).nameLayout = t.nameLayout.rename r := by
  obtain ⟨table, schema, tableAlias⟩ := t
  cases schema <;> rfl

theorem Target.layout_rename (t : Target) : (t.rename r).layout = t.layout.rename r := by
  rw [layout, nameLayout_rename, layout, ← labelled_rename]
  rfl

theorem Join.layout_rename (j : Join) : (j.rename r).layout = j.layout.rename r := by
  cases j with
  | table kind joined tableAlias primaryKey foreignKey =>
    have hlabel := labelled_rename r [.name joined] tableAlias
    simp only [rename_cons, rename_nil, Piece.rename] at hlabel
    simp [layout, Join.rename, hlabel, Piece.rename, ColumnName.rename]
  | raw kind sql => rfl

theorem Join.clauseLayout_rename (joins : List Join) :
    clauseLayout (joins.map (Join.rename r)) = (clauseLayout joins).rename r := by
  rw [clauseLayout, clauseLayout, ← joined_rename, List.map_map, List.map_map]
  simp only [Function.comp_def, layout_rename]

theorem Grouping.clauseLayout_rename (tableAlias : Option String) (groups : List Grouping) :
    clauseLayout (tableAlias.map r) (groups.map (Grouping.rename r)) =
      (clauseLayout tableAlias groups).rename r := by
  have hgroup : ∀ g : Grouping,
      (g.rename r).layout (tableAlias.map r) = (g.layout tableAlias).rename r := by
    intro g
    cases g with
    | column c =>
      simp [layout, Grouping.rename, ColumnName.rename, Piece.rename, Option.or_map]
    | raw sql => rfl
  rw [clauseLayout, clauseLayout, ← headed_rename, ← joined_rename, List.map_map, List.map_map]
  simp only [Function.comp_def, hgroup]

theorem Limits.limitLayout_rename (l : Limits) : l.limitLayout.rename r = l.limitLayout := by
  unfold limitLayout
  split <;> rfl

theorem Limits.layout_rename (l : Limits) : l.layout.rename r = l.layout := by
  unfold layout
  by_cases hl : 0 < l.limit <;> by_cases ho : 0 < l.offset <;> simp [hl, ho, Piece.rename]

theorem SortKey.clauseLayout_rename (k : Option SortKey) :
    (clauseLayout k).rename r = clauseLayout k := by
  cases k <;> rfl

namespace Select.Arm

def rename (a : Arm) : Arm :=
  ⟨a.distinct, a.columns.rename r, a.joins.map (Join.rename r), a.filter.rename r,
    a.groups.map (Grouping.rename r), a.limits, a.sort⟩

theorem columnList_rename (a : Arm) : (a.rename r).columnList = a.columnList.rename r := by
  obtain ⟨distinct, columns, joins, filter, groups, limits, sort⟩ := a
  cases columns <;> rfl

theorem layout_rename (t : Target) (a : Arm) :
    (a.rename r).layout (t.rename r) = (a.layout t).rename r := by
  have hjoins : Join.clauseLayout (a.rename r).joins = (Join.clauseLayout a.joins).rename r :=
    Join.clauseLayout_rename r a.joins
  have hgroups : Grouping.clauseLayout (t.rename r).tableAlias (a.rename r).groups =
      (Grouping.clauseLayout t.tableAlias a.groups).rename r :=
    Grouping.clauseLayout_rename r t.tableAlias a.groups
  have hfilter : (a.rename r).filter = a.filter.rename r := rfl
  rw [layout, layout, columnList_rename, Target.layout_rename, hjoins, hgroups, hfilter]
  simp only [rename_cons, rename_append, headed_rename, Limits.layout_rename,
    SortKey.clauseLayout_rename]
  rfl

end Select.Arm
end

/-! ## Queries -/

section
variable {r : String → String} (hr : IsRenaming r)

namespace Expr

theorem columnLayout_rename (r : String → String) (tableAlias : Option String) (c : ColumnName) :
    columnLayout (tableAlias.map r) (c.rename r) = (columnLayout tableAlias c).rename r := by
  simp [columnLayout, ColumnName.rename, Piece.rename, Option.or_map]

include hr in
theorem aggregateLayout_rename (tableAlias : Option String) (function : Aggregate)
    (c : ColumnName) :
    aggregateLayout (tableAlias.map r) function (c.rename r) =
      (aggregateLayout tableAlias function c).rename r := by
  rw [aggregateLayout, aggregateLayout, hr.isWildcard, columnLayout_rename]
  cases c.isWildcard <;> simp [Piece.rename]

theorem operandLayout_rename (op : Operator) (value : Value) :
    (operandLayout op value).rename r = operandLayout op value := by
  unfold operandLayout
  split
  · split <;> rfl
  · split <;> rfl
  · rfl
  · rfl
  · rfl

theorem negationLayout_rename (negated : Bool) :
    (negationLayout negated).rename r = negationLayout negated := by
  cases negated <;> rfl

theorem values_rename (values : List Value) :
    Layout.rename r (List.intercalate [.words ","] (values.map fun v => [.value v])) =
      List.intercalate [.words ","] (values.map fun v => [.value v]) := by
  rw [← intercalate_rename, List.map_map]
  rfl

end Expr

namespace Recursion

include hr in
theorem memberArm_rename (distinct : Bool) (columns : Layout) (groups : List Grouping)
    (k : Recursion) :
    (k.memberArm distinct columns groups).rename r =
      (k.rename r).memberArm distinct (columns.rename r) (groups.map (Grouping.rename r)) := by
  have hjoin : k.join.rename r = (k.rename r).join := by
    simp [join, Join.rename, Recursion.rename, ColumnName.rename, ColumnName.qualified, tableName,
      anchorAlias, memberAlias, hr.table, hr.member, hr.anchor]
  simp [memberArm, Select.Arm.rename, hjoin]

include hr in
theorem memberLayout_rename (columns : List Layout) :
    memberLayout (columns.map (Layout.rename r)) = (memberLayout columns).rename r := by
  cases columns with
  | nil => simp [memberLayout, Piece.rename, memberAlias, hr.member, hr.wildcard]
  | cons l rest =>
    have hjoined := joined_rename r "," (l :: rest)
    simpa [memberLayout] using hjoined

theorem layout_rename (initial member : Layout) :
    (layout initial member).rename r = layout (initial.rename r) (member.rename r) := by
  simp [layout, Piece.rename]

end Recursion
end

mutual

theorem Expr.layout_rename {r : String → String} (hr : IsRenaming r) (tableAlias : Option String) :
    (e : Expr) → e.check = .ok () →
    (e.rename r).layout (tableAlias.map r) = (e.layout tableAlias).rename r
  | .raw sql, _ | .rawColumn sql, _ => by simp [Expr.rename, Expr.layout, Piece.rename]
  | .column c label, _ => by
    rw [Expr.rename, Expr.layout, Expr.layout, Expr.columnLayout_rename, labelled_rename]
  | .aggregate function c label, _ => by
    rw [Expr.rename, Expr.layout, Expr.layout, Expr.aggregateLayout_rename hr, labelled_rename]
  | .datePart part c label, _ => by
    rw [Expr.rename, Expr.layout, Expr.layout, ← labelled_rename, Expr.datePartLayout,
      Expr.datePartLayout, Expr.columnLayout_rename]
    simp [Piece.rename]
  | .comparison c op value, _ => by
    rw [Expr.rename, Expr.layout, Expr.layout, Expr.comparisonLayout, Expr.comparisonLayout,
      Expr.columnLayout_rename]
    simp [Piece.rename, Expr.operandLayout_rename]
  | .between c low high negated, _ => by
    rw [Expr.rename, Expr.layout, Expr.layout, Expr.betweenLayout, Expr.betweenLayout,
      Expr.columnLayout_rename]
    simp [Piece.rename, Expr.negationLayout_rename]
  | .oneOf c values negated, _ => by
    rw [Expr.rename, Expr.layout, Expr.layout, Expr.oneOfLayout, Expr.oneOfLayout,
      Expr.columnLayout_rename]
    simp [Piece.rename, Expr.negationLayout_rename, Expr.values_rename]
  | .group filter, h => by
    rw [Expr.check] at h
    rw [Expr.rename, Expr.layout, Expr.layout, Filter.layout_rename hr tableAlias filter h,
      enclosed_rename]
  | .existence query negated, h => by
    rw [Expr.check] at h
    rw [Expr.rename, Expr.layout, Expr.layout, Select.layout_rename hr query h]
    simp [Piece.rename, Expr.negationLayout_rename]

theorem Expr.layouts_rename {r : String → String} (hr : IsRenaming r)
    (tableAlias : Option String) : (es : List Expr) → Expr.checks es = .ok () →
    Expr.layouts (tableAlias.map r) (Expr.renames r es) =
      (Expr.layouts tableAlias es).map (Layout.rename r)
  | [], _ => by rw [Expr.renames, Expr.layouts, Expr.layouts, List.map_nil]
  | e :: rest, h => by
    rw [Expr.checks] at h
    obtain ⟨⟨⟩, he, hrest⟩ := Except.bind_eq_ok.1 h
    rw [Expr.renames, Expr.layouts, Expr.layouts, List.map_cons,
      Expr.layout_rename hr tableAlias e he, Expr.layouts_rename hr tableAlias rest hrest]

theorem Filter.layout_rename {r : String → String} (hr : IsRenaming r)
    (tableAlias : Option String) : (f : Filter) → f.check = .ok () →
    (f.rename r).layout (tableAlias.map r) = (f.layout tableAlias).rename r
  | ⟨terms, connective⟩, h => by
    rw [Filter.check] at h
    rw [Filter.rename, Filter.layout, Filter.layout, Expr.layouts_rename hr tableAlias terms h,
      joined_rename]

/-- The layout of a renamed query is the renamed layout. -/
theorem Select.layout_rename {r : String → String} (hr : IsRenaming r) :
    (q : Select) → q.check = .ok () → (q.rename r).layout = q.layout.rename r
  | ⟨table, schema, tableAlias, distinct, columns, filter, joins, groups, sort, limits,
      recursion⟩, h => by
    obtain ⟨htable, hcolumns, hfilter⟩ := Select.check_eq_ok h
    obtain ⟨table, rfl⟩ := Option.isSome_iff_exists.1 htable
    have hlayouts := fun name => Expr.layouts_rename hr name columns hcolumns
    have hmember := hlayouts (some Recursion.memberAlias)
    rw [Option.map_some, show r Recursion.memberAlias = Recursion.memberAlias from hr.member]
      at hmember
    rw [Select.rename, Select.layout.eq_def, Select.layout.eq_def]
    simp only [hlayouts tableAlias, hmember, joined_rename,
      Filter.layout_rename hr tableAlias filter hfilter]
    cases recursion with
    | none => exact Select.Arm.layout_rename r ⟨table, schema, tableAlias⟩ ⟨_, _, _, _, _, _, _⟩
    | some k =>
      have hagain : Target.rename r ⟨table, schema, some Recursion.memberAlias⟩ =
          ⟨r table, schema.map r, some Recursion.memberAlias⟩ := by
        rw [Target.rename, Option.map_some,
          show r Recursion.memberAlias = Recursion.memberAlias from hr.member]
      simp only [Option.map_some, Recursion.layout_rename, Recursion.memberLayout_rename hr,
        ← Recursion.memberArm_rename hr]
      congr 1
      · exact Select.Arm.layout_rename r ⟨table, schema, tableAlias⟩ ⟨_, _, [], _, _, _, _⟩
      · rw [← Select.Arm.layout_rename, Option.getD_some, Option.getD_some, hagain]

end

end BoundSql
