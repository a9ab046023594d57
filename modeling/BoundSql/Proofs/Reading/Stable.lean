import BoundSql.Proofs.Reading.Select

/-!
# Statements of normal forms

A query and its normal form have the same marks, so the normal form forgets nothing that a
statement says. Whether a part shows does not change either, and so a group keeps its separators.
-/
namespace BoundSql

open Layout

/-! ## What a normal form keeps -/

mutual

theorem Expr.isHollow_normal (tableAlias : Option String) :
    (e : Expr) → (e.normal tableAlias).isHollow = e.isHollow
  | .raw r | .rawColumn r | .column c label | .aggregate function c label
  | .datePart part c label | .comparison c op v | .between c low high negated
  | .oneOf c values negated | .existence q negated => by simp [Expr.normal, Expr.isHollow]
  | .group f => by
    rw [Expr.normal, Expr.isHollow, Expr.isHollow, Filter.isHollow_normal tableAlias f]

theorem Expr.areHollow_normals (tableAlias : Option String) :
    (es : List Expr) → Expr.areHollow (Expr.normals tableAlias es) = Expr.areHollow es
  | [] => rfl
  | e :: rest => by
    have he := Expr.isHollow_normal tableAlias e
    have hrest := Expr.areHollow_normals tableAlias rest
    rw [Expr.normals, Expr.areHollow]
    cases hhollow : e.isHollow with
    | true => simpa using hrest
    | false => simp [Expr.areHollow, he, hhollow]

theorem Filter.isHollow_normal (tableAlias : Option String) :
    (f : Filter) → (f.normal tableAlias).isHollow = f.isHollow
  | ⟨terms, connective⟩ => by
    rw [Filter.normal, Filter.isHollow, Filter.isHollow, Expr.areHollow_normals tableAlias terms]

end

theorem Expr.shown_normals (tableAlias : Option String) (es : List Expr) :
    Expr.shown (Expr.normals tableAlias es) = Expr.normals tableAlias es := by
  refine List.filter_eq_self.2 fun e he => ?_
  rw [Expr.normals_eq_map] at he
  obtain ⟨e', he', rfl⟩ := List.mem_map.1 he
  rw [Expr.isHollow_normal, (Expr.mem_shown.1 he').2]
  rfl

/-- Beside `IS` and `IS NOT` there is still a keyword. -/
theorem Expr.isReadable_comparison_normal {c c' : ColumnName} {op : Operator} {v : Value}
    (h : (Expr.comparison c op v).isReadable = true) :
    (Expr.comparison c' (op.normal v).1 (op.normal v).2).isReadable = true := by
  cases op with
  | is | isNot =>
    cases v <;> simp_all [Expr.isReadable, Operator.normal, Expr.literal?, Value.binding]
  | _ => simp [Expr.isReadable, Operator.normal]

theorem Expr.areReadable_selected {es : List Expr} (h : Expr.areReadable es = true) :
    Expr.areReadable (Expr.selected es) = true := by
  match es with
  | [e] =>
    cases he : e.isStar with
    | true => simp [Expr.selected, he, Expr.areReadable]
    | false => simpa [Expr.selected, he] using h
  | [] => rfl
  | e :: e' :: rest => exact h

mutual

theorem Expr.isReadable_normal (tableAlias : Option String) :
    (e : Expr) → e.isReadable = true → (e.normal tableAlias).isReadable = true
  | .raw r, h | .rawColumn r, h => by simp [Expr.isReadable] at h
  | .column c label, _ | .aggregate function c label, _ | .datePart part c label, _
  | .between c low high negated, _ | .oneOf c values negated, _ => by
    simp [Expr.normal, Expr.isReadable]
  | .comparison c op v, h => by
    rw [Expr.normal]
    exact Expr.isReadable_comparison_normal h
  | .group f, h => by
    rw [Expr.isReadable] at h
    rw [Expr.normal, Expr.isReadable]
    exact Filter.isReadable_normal tableAlias f h
  | .existence q negated, h => by
    rw [Expr.isReadable] at h
    rw [Expr.normal, Expr.isReadable]
    exact Select.isReadable_normal q h

theorem Expr.areReadable_normals (tableAlias : Option String) : (es : List Expr) →
    Expr.areReadable es = true → Expr.areReadable (Expr.normals tableAlias es) = true
  | [], _ => by rw [Expr.normals, Expr.areReadable]
  | e :: rest, h => by
    rw [Expr.areReadable, Bool.and_eq_true] at h
    have he := Expr.isReadable_normal tableAlias e h.1
    have hrest := Expr.areReadable_normals tableAlias rest h.2
    rw [Expr.normals]
    cases e.isHollow with
    | true => exact hrest
    | false => simp [Expr.areReadable, he, hrest]

theorem Filter.isReadable_normal (tableAlias : Option String) :
    (f : Filter) → f.isReadable = true → (f.normal tableAlias).isReadable = true
  | ⟨terms, connective⟩, h => by
    rw [Filter.isReadable] at h
    rw [Filter.normal, Filter.isReadable]
    exact Expr.areReadable_normals tableAlias terms h

theorem Select.isReadable_normal : (q : Select) → q.isReadable = true →
    q.normal.isReadable = true
  | ⟨table, schema, tableAlias, distinct, columns, filter, joins, groups, sort, limits,
      recursion⟩, h => by
    simp only [Select.isReadable, Bool.and_eq_true] at h
    obtain ⟨⟨⟨⟨⟨htable, hcolumns⟩, hfilter⟩, hjoins⟩, hgroups⟩, hrecursion⟩ := h
    have hgroups' : (groups.map (Grouping.under tableAlias)).flatMap Grouping.raws =
        groups.flatMap Grouping.raws := by
      rw [List.flatMap_map]
      congr 1
      funext g
      cases g <;> rfl
    have hselected := Expr.areReadable_selected
      (Expr.areReadable_normals tableAlias columns hcolumns)
    simp only [Select.normal, Select.isReadable, Bool.and_eq_true, hgroups']
    exact ⟨⟨⟨⟨⟨htable, hselected⟩, Filter.isReadable_normal tableAlias filter hfilter⟩, hjoins⟩,
      hgroups⟩, hrecursion⟩

end

/-! ## Marks of the parts -/

theorem Layout.marks_intercalate (separator : String) (ls : List Layout) :
    marks (List.intercalate [.words separator] ls) =
      List.intercalate (Text.marks separator) (ls.map marks) := by
  induction ls with
  | nil => rfl
  | cons l ls ih =>
    cases ls with
    | nil => simp
    | cons k ks =>
      rw [List.intercalate_cons_cons, List.map_cons, List.map_cons, List.intercalate_cons_cons,
        marks_append, marks_append, ih, List.map_cons]
      simp [Piece.marks.eq_1]

/-- Fewer than two parts have nothing between them. -/
theorem Text.intercalate_eq (s t : List Mark) {parts : List (List Mark)}
    (h : parts.length < 2) : List.intercalate s parts = List.intercalate t parts := by
  match parts, h with
  | [], _ => rfl
  | [l], _ => rw [List.intercalate_singleton, List.intercalate_singleton]

theorem Layout.marks_headed_eq (before : String) {k l : Layout} (h : k.marks = l.marks)
    (hnil : k = [] ↔ l = []) : (headed before k).marks = (headed before l).marks := by
  cases k with
  | nil => rw [hnil.1 rfl]
  | cons p k =>
    cases l with
    | nil => cases hnil.2 rfl
    | cons q l => simpa [headed] using h

theorem Layout.marks_enclosed_eq (before after : String) {k l : Layout} (h : k.marks = l.marks)
    (hnil : k = [] ↔ l = []) :
    (enclosed before after k).marks = (enclosed before after l).marks := by
  have hheaded := marks_headed_eq before h hnil
  cases k with
  | nil => rw [hnil.1 rfl]
  | cons p k =>
    cases l with
    | nil => cases hnil.2 rfl
    | cons q l =>
      have henclosed : ∀ (r : Piece) (m : Layout), enclosed before after (r :: m) =
          headed before (r :: m) ++ [.words after] := fun r m => rfl
      rw [henclosed, henclosed, marks_append, marks_append, hheaded]

theorem Filter.layout_normal_eq_nil_iff (tableAlias : Option String) {f : Filter}
    (h : f.isReadable = true) :
    (f.normal tableAlias).layout tableAlias = [] ↔ f.layout tableAlias = [] := by
  rw [Filter.layout_eq_nil_iff tableAlias (Filter.isReadable_normal tableAlias f h),
    Filter.layout_eq_nil_iff tableAlias h, Filter.isHollow_normal]

namespace Grouping

theorem layout_under (tableAlias : Option String) (g : Grouping) :
    (g.under tableAlias).layout tableAlias = g.layout tableAlias := by
  cases g with
  | raw r => rfl
  | column c => simp [under, layout, ColumnName.under, Option.or_assoc]

theorem clauseLayout_under (tableAlias : Option String) (groups : List Grouping) :
    clauseLayout tableAlias (groups.map (under tableAlias)) = clauseLayout tableAlias groups := by
  simp [clauseLayout, Function.comp_def, layout_under]

end Grouping

namespace Expr

section
variable (tableAlias : Option String) (c : ColumnName)

theorem columnLayout_under : columnLayout tableAlias (c.under tableAlias) =
    columnLayout tableAlias c := by
  simp [columnLayout, ColumnName.under, Option.or_assoc]

theorem aggregateLayout_normal (function : Aggregate) :
    aggregateLayout tableAlias function (if c.isWildcard then .plain "*" else c.under tableAlias) =
      aggregateLayout tableAlias function c := by
  have hname : (c.under tableAlias).isWildcard = c.isWildcard := rfl
  have hstar : (ColumnName.plain "*").isWildcard = true := rfl
  rw [aggregateLayout, aggregateLayout]
  cases h : c.isWildcard with
  | true => simp only [if_true, hstar]
  | false => simp only [Bool.false_eq_true, if_false, hname, h, columnLayout_under]

/-- A test for null reads the same in both spellings. -/
theorem marks_operandLayout_normal {op : Operator} {v : Value}
    (h : (Expr.comparison c op v).isReadable = true) :
    Layout.marks (.words (op.normal v).1.keyword ::
        operandLayout (op.normal v).1 (op.normal v).2) =
      Layout.marks (.words op.keyword :: operandLayout op v) := by
  cases op with
  | is | isNot =>
    cases v with
    | null | bool b => rfl
    | _ => simp [isReadable, literal?] at h
  | isNull | isNotNull => rfl
  | _ => simp [Operator.normal, operandLayout, Piece.marks]

theorem marks_value (v : Value) : (Piece.value v.binding).marks = (Piece.value v).marks := by
  simp [Piece.marks]

end
end Expr

/-! ## Marks of a statement -/

theorem Select.marks_columnList {q : Select} (h : Expr.areReadable q.columns = true) :
    q.arm.columnList.marks = if (Expr.shown q.columns).isEmpty then Text.marks "*" else
      List.intercalate (Text.marks ",")
        (((Expr.shown q.columns).map (Expr.layout q.tableAlias)).map Layout.marks) := by
  rw [columnList_eq h]
  split
  · rfl
  · rw [Layout.marks_intercalate]

theorem Expr.marks_layout_of_isStar {tableAlias : Option String} {e : Expr}
    (h : (e.normal tableAlias).isStar = true) :
    ((e.normal tableAlias).layout tableAlias).marks = Text.marks "*" := by
  cases e with
  | column c label =>
    cases label with
    | some n => simp [normal, isStar] at h
    | none =>
      have hunder : c.under tableAlias = .plain "*" := by simpa [normal, isStar] using h
      have hlayout : (normal tableAlias (.column c none)).layout tableAlias =
          columnLayout tableAlias (c.under tableAlias) := by
        rw [normal, layout]
        rfl
      rw [hlayout, columnLayout_under, marks_columnLayout, hunder]
      rfl
  | _ => simp [normal, isStar] at h

/-- A select list without the wildcard that it consists of is written as the wildcard. -/
theorem Select.marks_columnList_normal {q : Select} (h : Expr.areReadable q.columns = true)
    (hmarks : ((Expr.normals q.tableAlias q.columns).map (Expr.layout q.tableAlias)).map
        Layout.marks =
      ((Expr.shown q.columns).map (Expr.layout q.tableAlias)).map Layout.marks) :
    q.normal.arm.columnList.marks = q.arm.columnList.marks := by
  have hreadable := Expr.areReadable_selected (Expr.areReadable_normals q.tableAlias q.columns h)
  have hshown := Expr.shown_normals q.tableAlias q.columns
  have hempty : (Expr.shown q.columns).isEmpty =
      (Expr.normals q.tableAlias q.columns).isEmpty := by
    rw [Expr.normals_eq_map, List.isEmpty_map]
  have hstar : ∀ e ∈ Expr.normals q.tableAlias q.columns, e.isStar = true →
      (e.layout q.tableAlias).marks = Text.marks "*" := by
    intro e he hstar
    rw [Expr.normals_eq_map] at he
    obtain ⟨e', -, rfl⟩ := List.mem_map.1 he
    exact Expr.marks_layout_of_isStar hstar
  rw [← columns_normal] at hreadable
  rw [marks_columnList hreadable, marks_columnList h, columns_normal, tableAlias_normal, ← hmarks,
    hempty]
  -- Only a list of one expression can change, and only if that is the wildcard.
  generalize Expr.normals q.tableAlias q.columns = es at *
  match es with
  | [e] =>
    cases he : e.isStar with
    | true => simp [Expr.selected, Expr.shown, he, hstar e]
    | false => simp [Expr.selected, he, hshown]
  | [] => rfl
  | e :: e' :: rest =>
    have hselected : Expr.selected (e :: e' :: rest) = e :: e' :: rest := rfl
    rw [hselected, hshown]

theorem Select.marks_layout_normal {q : Select} (hrecursion : q.recursion = none)
    (hlist : q.normal.arm.columnList.marks = q.arm.columnList.marks)
    (hwhere :
      (headed " WHERE " ((q.filter.normal q.tableAlias).layout q.tableAlias)).marks =
        (headed " WHERE " (q.filter.layout q.tableAlias)).marks) :
    q.normal.layout.marks = q.layout.marks := by
  have hgroups := Grouping.clauseLayout_under q.tableAlias q.groups
  have hclauses : (q.normal.arm.clauses q.normal.target).marks =
      (q.arm.clauses q.target).marks := by
    cases q
    simp only [normal, arm, target, Arm.clauses, Layout.marks_append, hwhere, hgroups]
  have hmarks := marks_layout (q.recursion_normal.trans hrecursion) []
  rw [hlist, hclauses, distinct_normal, ← marks_layout hrecursion] at hmarks
  simpa using hmarks

mutual

theorem Expr.marks_normal (tableAlias : Option String) : (e : Expr) → e.isReadable = true →
    ((e.normal tableAlias).layout tableAlias).marks = (e.layout tableAlias).marks
  | .raw r, h | .rawColumn r, h => by simp [Expr.isReadable] at h
  | .column c label, _ => by rw [Expr.normal, Expr.layout, Expr.layout, Expr.columnLayout_under]
  | .aggregate function c label, _ => by
    rw [Expr.normal, Expr.layout, Expr.layout, Expr.aggregateLayout_normal]
  | .datePart part c label, _ => by
    rw [Expr.normal, Expr.layout, Expr.layout, Expr.datePartLayout, Expr.datePartLayout,
      Expr.columnLayout_under]
  | .comparison c op v, h => by
    have hoperand := Expr.marks_operandLayout_normal c h
    rw [Expr.normal, Expr.layout, Expr.layout, Expr.comparisonLayout, Expr.comparisonLayout,
      Expr.columnLayout_under, Layout.marks_append, Layout.marks_cons, hoperand,
      ← Layout.marks_cons, ← Layout.marks_append]
  | .between c low high negated, _ => by
    rw [Expr.normal, Expr.layout, Expr.layout, Expr.betweenLayout, Expr.betweenLayout,
      Expr.columnLayout_under]
    simp only [Layout.marks_append, Layout.marks_cons, Expr.marks_value]
  | .oneOf c values negated, _ => by
    rw [Expr.normal, Expr.layout, Expr.layout, Expr.oneOfLayout, Expr.oneOfLayout,
      Expr.columnLayout_under]
    simp [Layout.marks_intercalate, Function.comp_def, Expr.marks_value]
  | .group f, h => by
    rw [Expr.isReadable] at h
    have hf := Filter.marks_normal tableAlias f h
    rw [Expr.normal, Expr.layout, Expr.layout]
    exact Layout.marks_enclosed_eq "( " " )" hf (Filter.layout_normal_eq_nil_iff tableAlias h)
  | .existence q negated, h => by
    rw [Expr.isReadable] at h
    rw [Expr.normal, Expr.layout, Expr.layout]
    simp only [Layout.marks_append, Layout.marks_cons, Select.marks_normal q h]

theorem Expr.marks_normals (tableAlias : Option String) : (es : List Expr) →
    Expr.areReadable es = true →
      ((Expr.normals tableAlias es).map (Expr.layout tableAlias)).map Layout.marks =
        ((Expr.shown es).map (Expr.layout tableAlias)).map Layout.marks
  | [], _ => rfl
  | e :: rest, h => by
    rw [Expr.areReadable, Bool.and_eq_true] at h
    have he := Expr.marks_normal tableAlias e h.1
    have hrest := Expr.marks_normals tableAlias rest h.2
    rw [Expr.normals, Expr.shown, List.filter_cons, ← Expr.shown]
    cases e.isHollow with
    | true => exact hrest
    | false => simp_all

theorem Filter.marks_normal (tableAlias : Option String) : (f : Filter) → f.isReadable = true →
    ((f.normal tableAlias).layout tableAlias).marks = (f.layout tableAlias).marks
  | ⟨terms, c⟩, h => by
    rw [Filter.isReadable] at h
    have hnormals := Expr.marks_normals tableAlias terms h
    have hreadable := Expr.areReadable_normals tableAlias terms h
    have hlength : (Expr.normals tableAlias terms).length = (Expr.shown terms).length := by
      rw [Expr.normals_eq_map, List.length_map]
    rw [Filter.normal, Filter.layout, Filter.layout, Expr.joined_layouts _ _ hreadable,
      Expr.joined_layouts _ _ h, Expr.shown_normals, Layout.marks_intercalate,
      Layout.marks_intercalate, hnormals, hlength]
    by_cases hfew : (Expr.shown terms).length < 2
    · exact Text.intercalate_eq _ _ (by simpa using hfew)
    · rw [if_neg hfew]

theorem Select.marks_normal : (q : Select) → q.isReadable = true →
    q.normal.layout.marks = q.layout.marks
  | ⟨table, schema, tableAlias, distinct, columns, filter, joins, groups, sort, limits,
      recursion⟩, h => by
    obtain ⟨-, hcolumns, hfilter, -, -, hrecursion⟩ := (Select.isReadable_iff _).1 h
    obtain rfl : recursion = none := hrecursion
    have hlist := Select.marks_columnList_normal hcolumns
      (Expr.marks_normals tableAlias columns hcolumns)
    have hwhere := Layout.marks_headed_eq " WHERE "
      (Filter.marks_normal tableAlias filter hfilter)
      (Filter.layout_normal_eq_nil_iff tableAlias hfilter)
    exact Select.marks_layout_normal rfl hlist hwhere

end

end BoundSql
