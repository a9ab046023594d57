import BoundSql.Proofs.Reload.Layout

/-!
# Queries with other values

A query whose values have changed in a way that it does not see is refused for the same cause,
and its layout has the other values in the same places.
-/
namespace BoundSql

open Layout

section
variable {f : Value → Value} (hf : Value.IsUnseen f)

/-! ## Clauses -/

theorem Target.layout_mapValues (f : Value → Value) (t : Target) :
    t.layout.mapValues f = t.layout :=
  mapValues_of_unbound (d := .mysql) f (congrArg Fragment.bindings (nameAliased_eq .mysql t)).symm

theorem Target.nameLayout_mapValues (f : Value → Value) (t : Target) :
    t.nameLayout.mapValues f = t.nameLayout :=
  mapValues_of_unbound (d := .mysql) f (congrArg Fragment.bindings (name_eq .mysql t)).symm

theorem Join.layout_mapValues (f : Value → Value) (j : Join) :
    (j.mapValues f).layout = j.layout.mapValues f := by
  cases j with
  | table kind joined tableAlias primaryKey foreignKey =>
    have hsql := sql_eq ⟨.mysql, none⟩ (.table kind joined tableAlias primaryKey foreignKey)
    exact (mapValues_of_unbound (d := .mysql) f (congrArg Fragment.bindings hsql).symm).symm
  | raw kind sql => rfl

theorem Join.clauseLayout_mapValues (f : Value → Value) (joins : List Join) :
    clauseLayout (joins.map (Join.mapValues f)) = (clauseLayout joins).mapValues f := by
  rw [clauseLayout, clauseLayout, ← joined_mapValues, List.map_map, List.map_map]
  simp only [Function.comp_def, layout_mapValues]

theorem Grouping.clauseLayout_mapValues (f : Value → Value) (tableAlias : Option String)
    (groups : List Grouping) :
    clauseLayout tableAlias (groups.map (Grouping.mapValues f)) =
      (clauseLayout tableAlias groups).mapValues f := by
  have hgroup : ∀ g : Grouping,
      (g.mapValues f).layout tableAlias = (g.layout tableAlias).mapValues f := by
    intro g
    cases g <;> rfl
  rw [clauseLayout, clauseLayout, ← headed_mapValues, ← joined_mapValues, List.map_map,
    List.map_map]
  simp only [Function.comp_def, hgroup]

theorem Limits.limitLayout_mapValues (f : Value → Value) (l : Limits) :
    l.limitLayout.mapValues f = l.limitLayout := by
  unfold limitLayout
  split <;> rfl

theorem Limits.layout_mapValues (f : Value → Value) (l : Limits) :
    l.layout.mapValues f = l.layout := by
  unfold layout
  by_cases hl : 0 < l.limit <;> by_cases ho : 0 < l.offset <;> simp [hl, ho, Piece.mapValues]

include hf in
theorem SortKey.clauseLayout_mapValues (k : Option SortKey) :
    (clauseLayout k).mapValues f = clauseLayout k := by
  cases k with
  | none => rfl
  | some k => simp [clauseLayout, layout, Piece.mapValues, hf.string]

namespace Select.Arm

def mapValues (f : Value → Value) (a : Arm) : Arm :=
  { a with
    columns := a.columns.mapValues f
    joins := a.joins.map (Join.mapValues f)
    filter := a.filter.mapValues f
    groups := a.groups.map (Grouping.mapValues f) }

theorem columnList_mapValues (f : Value → Value) (a : Arm) :
    (a.mapValues f).columnList = a.columnList.mapValues f := by
  obtain ⟨distinct, columns, joins, filter, groups, limits, sort⟩ := a
  cases columns <;> rfl

include hf in
theorem layout_mapValues (t : Target) (a : Arm) :
    (a.mapValues f).layout t = (a.layout t).mapValues f := by
  have hjoins : Join.clauseLayout (a.mapValues f).joins =
      (Join.clauseLayout a.joins).mapValues f := Join.clauseLayout_mapValues f a.joins
  have hgroups : Grouping.clauseLayout t.tableAlias (a.mapValues f).groups =
      (Grouping.clauseLayout t.tableAlias a.groups).mapValues f :=
    Grouping.clauseLayout_mapValues f t.tableAlias a.groups
  have hfilter : (a.mapValues f).filter = a.filter.mapValues f := rfl
  rw [layout, layout, columnList_mapValues, hjoins, hgroups, hfilter]
  simp only [mapValues_cons, mapValues_append, headed_mapValues, Target.layout_mapValues,
    Limits.layout_mapValues, SortKey.clauseLayout_mapValues hf]
  rfl

end Select.Arm

/-! ## Expressions -/

/-- No value stands in a refusal of the table. -/
theorem Target.resolve_mapError (f : Value → Value) (table schema tableAlias : Option String) :
    (resolve table schema tableAlias).mapError (Error.mapValues f) =
      resolve table schema tableAlias := by
  cases table with
  | none => rfl
  | some table =>
    rw [resolve]
    split
    · rfl
    · split
      · rfl
      · split <;> rfl

theorem Recursion.check_mapError (f : Value → Value) (k : Recursion) :
    k.check.mapError (Error.mapValues f) = k.check := by
  rw [check]
  split <;> rfl

namespace Expr

theorem columnLayout_mapValues (f : Value → Value) (tableAlias : Option String) (c : ColumnName) :
    (columnLayout tableAlias c).mapValues f = columnLayout tableAlias c := rfl

theorem aggregateLayout_mapValues (f : Value → Value) (tableAlias : Option String)
    (function : Aggregate) (c : ColumnName) :
    (aggregateLayout tableAlias function c).mapValues f =
      aggregateLayout tableAlias function c := by
  unfold aggregateLayout
  cases c.isWildcard <;> rfl

theorem negationLayout_mapValues (f : Value → Value) (negated : Bool) :
    (negationLayout negated).mapValues f = negationLayout negated := by
  cases negated <;> rfl

include hf in
theorem operandLayout_mapValues (op : Operator) (value : Value) :
    operandLayout op (f value) = (operandLayout op value).mapValues f := by
  cases op
  case is | isNot =>
    rw [operandLayout, operandLayout, hf.literal]
    cases literal? value <;> rfl
  all_goals rfl

theorem values_mapValues (f : Value → Value) (values : List Value) :
    List.intercalate [.words ","] ((values.map f).map fun v => [.value v]) =
      Layout.mapValues f (List.intercalate [.words ","] (values.map fun v => [.value v])) := by
  rw [← intercalate_mapValues, List.map_map, List.map_map]
  rfl

include hf in
theorem comparisonCheck_mapValues (c : ColumnName) (op : Operator) (value : Value) :
    comparisonCheck c op (f value) = (comparisonCheck c op value).mapError (Error.mapValues f) := by
  cases op
  case is | isNot =>
    simp only [comparisonCheck, hf.literal]
    split <;> rfl
  all_goals rfl

theorem nameColumns_mapValues (f : Value → Value) (columns : List Expr) :
    nameColumns (Expr.mapListValues f columns) = nameColumns columns := by
  have hwildcard : ∀ e : Expr, (e.mapValues f).isWildcard = e.isWildcard := by
    intro e
    cases e <;> rw [Expr.mapValues] <;> rfl
  rw [mapListValues_eq_map, nameColumns, nameColumns, List.isEmpty_map, List.any_map]
  simp only [Function.comp_def, hwildcard]

end Expr

namespace Recursion

theorem memberArm_mapValues (f : Value → Value) (distinct : Bool) (columns : Layout)
    (groups : List Grouping) (k : Recursion) :
    (k.memberArm distinct columns groups).mapValues f =
      k.memberArm distinct (columns.mapValues f) (groups.map (Grouping.mapValues f)) := rfl

theorem memberLayout_mapValues (f : Value → Value) (columns : List Layout) :
    memberLayout (columns.map (Layout.mapValues f)) = (memberLayout columns).mapValues f := by
  cases columns with
  | nil => rfl
  | cons l rest => exact joined_mapValues f "," (l :: rest)

theorem layout_mapValues (f : Value → Value) (initial member : Layout) :
    (layout initial member).mapValues f = layout (initial.mapValues f) (member.mapValues f) := by
  simp [layout, Piece.mapValues]

end Recursion
end

/-! ## Queries -/

mutual

theorem Expr.layout_mapValues {f : Value → Value} (hf : Value.IsUnseen f)
    (tableAlias : Option String) : (e : Expr) →
    (e.mapValues f).layout tableAlias = (e.layout tableAlias).mapValues f
  | .raw _ | .rawColumn _ => by simp [Expr.mapValues, Expr.layout, Piece.mapValues]
  | .column c label => by
    rw [Expr.mapValues, Expr.layout, ← labelled_mapValues, Expr.columnLayout_mapValues]
  | .aggregate function c label => by
    rw [Expr.mapValues, Expr.layout, ← labelled_mapValues, Expr.aggregateLayout_mapValues]
  | .datePart part c label => by
    rw [Expr.mapValues, Expr.layout, ← labelled_mapValues]
    rfl
  | .comparison c op value => by
    rw [Expr.mapValues, Expr.layout, Expr.layout, Expr.comparisonLayout, Expr.comparisonLayout,
      Expr.operandLayout_mapValues hf, mapValues_append, Expr.columnLayout_mapValues]
    rfl
  | .between c low high negated => by
    rw [Expr.mapValues, Expr.layout, Expr.layout, Expr.betweenLayout, Expr.betweenLayout,
      mapValues_append, Expr.columnLayout_mapValues]
    simp [Piece.mapValues, Expr.negationLayout_mapValues]
  | .oneOf c values negated => by
    rw [Expr.mapValues, Expr.layout, Expr.layout, Expr.oneOfLayout, Expr.oneOfLayout,
      mapValues_append, Expr.columnLayout_mapValues, Expr.values_mapValues]
    simp [Piece.mapValues, Expr.negationLayout_mapValues]
  | .group filter => by
    rw [Expr.mapValues, Expr.layout, Expr.layout, Filter.layout_mapValues hf tableAlias filter,
      enclosed_mapValues]
  | .existence query negated => by
    rw [Expr.mapValues, Expr.layout, Expr.layout, Select.layout_mapValues hf query]
    simp [Piece.mapValues, Expr.negationLayout_mapValues]

theorem Expr.layouts_mapValues {f : Value → Value} (hf : Value.IsUnseen f)
    (tableAlias : Option String) : (es : List Expr) →
    Expr.layouts tableAlias (Expr.mapListValues f es) =
      (Expr.layouts tableAlias es).map (Layout.mapValues f)
  | [] => by rw [Expr.mapListValues, Expr.layouts, List.map_nil]
  | e :: rest => by
    rw [Expr.mapListValues, Expr.layouts, Expr.layouts, List.map_cons,
      Expr.layout_mapValues hf tableAlias e, Expr.layouts_mapValues hf tableAlias rest]

theorem Filter.layout_mapValues {f : Value → Value} (hf : Value.IsUnseen f)
    (tableAlias : Option String) : (w : Filter) →
    (w.mapValues f).layout tableAlias = (w.layout tableAlias).mapValues f
  | ⟨terms, connective⟩ => by
    rw [Filter.mapValues, Filter.layout, Filter.layout, Expr.layouts_mapValues hf tableAlias terms,
      joined_mapValues]

/-- The layout of a query has the other values in their places. -/
theorem Select.layout_mapValues {f : Value → Value} (hf : Value.IsUnseen f) :
    (q : Select) → (q.mapValues f).layout = q.layout.mapValues f
  | ⟨table, schema, tableAlias, distinct, columns, filter, joins, groups, sort, limits,
      recursion⟩ => by
    have hlayouts := fun name => Expr.layouts_mapValues hf name columns
    rw [Select.mapValues, Select.layout.eq_def, Select.layout.eq_def]
    simp only [hlayouts, joined_mapValues, Filter.layout_mapValues hf tableAlias filter]
    cases recursion with
    | none => exact Select.Arm.layout_mapValues hf _ ⟨_, _, _, _, _, _, _⟩
    | some k =>
      simp only [Recursion.layout_mapValues, Recursion.memberLayout_mapValues,
        ← Recursion.memberArm_mapValues]
      congr 1
      · exact Select.Arm.layout_mapValues hf _ ⟨_, _, [], _, _, _, _⟩
      · exact Select.Arm.layout_mapValues hf _ _

end

mutual

theorem Expr.check_mapValues {f : Value → Value} (hf : Value.IsUnseen f) :
    (e : Expr) → (e.mapValues f).check = e.check.mapError (Error.mapValues f)
  | .raw _ | .column .. | .aggregate .. | .rawColumn _ | .datePart .. | .between .. | .oneOf .. =>
    rfl
  | .comparison c op value => by
    rw [Expr.mapValues, Expr.check, Expr.check, Expr.comparisonCheck_mapValues hf]
  | .group filter => by
    rw [Expr.mapValues, Expr.check, Expr.check, Filter.check_mapValues hf filter]
  | .existence query negated => by
    rw [Expr.mapValues, Expr.check, Expr.check, Select.check_mapValues hf query]

theorem Expr.checks_mapValues {f : Value → Value} (hf : Value.IsUnseen f) :
    (es : List Expr) → Expr.checks (Expr.mapListValues f es) =
      (Expr.checks es).mapError (Error.mapValues f)
  | [] => by
    rw [Expr.mapListValues, Expr.checks]
    rfl
  | e :: rest => by
    rw [Expr.mapListValues, Expr.checks, Expr.checks, Except.mapError_bind,
      Expr.check_mapValues hf e, Expr.checks_mapValues hf rest]

theorem Filter.check_mapValues {f : Value → Value} (hf : Value.IsUnseen f) :
    (w : Filter) → (w.mapValues f).check = w.check.mapError (Error.mapValues f)
  | ⟨terms, connective⟩ => by
    rw [Filter.mapValues, Filter.check, Filter.check, Expr.checks_mapValues hf terms]

/-- A query with other values is refused whenever the query is, for the same cause. -/
theorem Select.check_mapValues {f : Value → Value} (hf : Value.IsUnseen f) :
    (q : Select) → (q.mapValues f).check = q.check.mapError (Error.mapValues f)
  | ⟨table, schema, tableAlias, distinct, columns, filter, joins, groups, sort, limits,
      recursion⟩ => by
    rw [Select.mapValues, Select.check, Select.check, Expr.nameColumns_mapValues,
      Expr.checks_mapValues hf columns, Filter.check_mapValues hf filter]
    rw [Except.mapError_bind, Target.resolve_mapError]
    cases Target.resolve table schema tableAlias with
    | error e => rfl
    | ok t =>
      cases distinct && !Expr.nameColumns columns with
      | true => rfl
      | false =>
        cases recursion with
        | none => exact (Except.mapError_bind ..).symm
        | some k =>
          have hk := Recursion.check_mapError f k
          cases hcheck : k.check with
          | error e =>
            rw [hcheck] at hk
            simp only [hcheck]
            exact hk.symm
          | ok u =>
            simp only [hcheck]
            exact (Except.mapError_bind ..).symm

end

end BoundSql
