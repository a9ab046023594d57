import BoundSql.Proofs.Reading.Mark

/-!
# Normal forms

Two queries may differ and still be one statement for the database. The normal form forgets these
differences and no other: groups without any text, the connective of fewer than two predicates,
whether a column is qualified by the alias of its own statement or not at all, the qualifier of the
wildcard of an aggregate, a select list of nothing but the wildcard, the value beside `IS NULL` and
its spelling as `IS` with null, and the form of a list before it is bound. Join keys take no alias
from their statement, so their qualifiers stay.
-/
namespace BoundSql

open Layout

/-- The column with the qualifier under which a statement writes it. -/
def ColumnName.under (tableAlias : Option String) (c : ColumnName) : ColumnName :=
  ⟨c.name, c.qualifier.or tableAlias⟩

def Grouping.under (tableAlias : Option String) : Grouping → Grouping
  | .column c => .column (c.under tableAlias)
  | .raw sql => .raw sql

/-- An operator with the value that its right side shows: tests for null are one, whichever way
they are spelled. -/
def Operator.normal (op : Operator) (value : Value) : Operator × Value :=
  match op, value with
  | .isNull, _ | .is, .null => (.isNull, .null)
  | .isNotNull, _ | .isNot, .null => (.isNotNull, .null)
  | op, value => (op, value.binding)

mutual

/-- A group in which no predicate has text, at any depth. -/
def Expr.isHollow : Expr → Bool
  | .group filter => filter.isHollow
  | _ => false

def Expr.areHollow : List Expr → Bool
  | [] => true
  | e :: rest => e.isHollow && Expr.areHollow rest

def Filter.isHollow : Filter → Bool
  | ⟨terms, _⟩ => Expr.areHollow terms

end

namespace Expr

/-- The unqualified wildcard without a label. -/
def isStar : Expr → Bool
  | .column c none => c = .plain "*"
  | _ => false

/-- A select list of nothing but the wildcard is an empty one. -/
def selected : List Expr → List Expr
  | [e] => if e.isStar then [] else [e]
  | es => es

end Expr

mutual

/-- The normal form of an expression under the alias of its statement. -/
def Expr.normal (tableAlias : Option String) : Expr → Expr
  | .raw sql => .raw sql
  | .column c label => .column (c.under tableAlias) label
  | .aggregate function c label =>
    .aggregate function (if c.isWildcard then .plain "*" else c.under tableAlias) label
  | .rawColumn sql => .rawColumn sql
  | .datePart part c label => .datePart part (c.under tableAlias) label
  | .comparison c op value =>
    .comparison (c.under tableAlias) (op.normal value).1 (op.normal value).2
  | .between c low high negated => .between (c.under tableAlias) low.binding high.binding negated
  | .oneOf c values negated => .oneOf (c.under tableAlias) (values.map Value.binding) negated
  | .group filter => .group (filter.normal tableAlias)
  | .existence query negated => .existence query.normal negated

/-- The normal forms of the expressions with text. -/
def Expr.normals (tableAlias : Option String) : List Expr → List Expr
  | [] => []
  | e :: rest =>
    if e.isHollow then Expr.normals tableAlias rest
    else e.normal tableAlias :: Expr.normals tableAlias rest

def Filter.normal (tableAlias : Option String) : Filter → Filter
  | ⟨terms, connective⟩ =>
    let shown := Expr.normals tableAlias terms
    ⟨shown, if shown.length < 2 then .and else connective⟩

/-- The normal form of a query. -/
def Select.normal : Select → Select
  | ⟨table, schema, tableAlias, distinct, columns, filter, joins, groups, sort, limits,
      recursion⟩ =>
    ⟨table, schema, tableAlias, distinct, Expr.selected (Expr.normals tableAlias columns),
      filter.normal tableAlias, joins, groups.map (Grouping.under tableAlias), sort, limits,
      recursion⟩

end

namespace Select
variable (q : Select)

@[simp] theorem columns_normal :
    q.normal.columns = Expr.selected (Expr.normals q.tableAlias q.columns) := by
  cases q
  rw [normal]

@[simp] theorem tableAlias_normal : q.normal.tableAlias = q.tableAlias := by
  cases q
  rw [normal]

@[simp] theorem distinct_normal : q.normal.distinct = q.distinct := by
  cases q
  rw [normal]

@[simp] theorem recursion_normal : q.normal.recursion = q.recursion := by
  cases q
  rw [normal]

end Select

mutual

/-- The recursions of the queries in an expression. -/
def Expr.recursions : Expr → List Recursion
  | .group filter => filter.recursions
  | .existence query _ => query.recursions
  | _ => []

def Expr.listRecursions : List Expr → List Recursion
  | [] => []
  | e :: rest => e.recursions ++ Expr.listRecursions rest

def Filter.recursions : Filter → List Recursion
  | ⟨terms, _⟩ => Expr.listRecursions terms

/-- All recursions of a query, its own and those of its subqueries. -/
def Select.recursions : Select → List Recursion
  | ⟨_, _, _, _, columns, filter, _, _, _, _, recursion⟩ =>
    Expr.listRecursions columns ++ filter.recursions ++ recursion.toList

end

/-! ## What can be read -/

mutual

/-- There is no raw SQL in the expression, no recursion, and no cause to refuse it. -/
def Expr.isReadable : Expr → Bool
  | .raw _ | .rawColumn _ => false
  | .comparison _ op value => (op != .is && op != .isNot) || (Expr.literal? value).isSome
  | .group filter => filter.isReadable
  | .existence query _ => query.isReadable
  | _ => true

def Expr.areReadable : List Expr → Bool
  | [] => true
  | e :: rest => e.isReadable && Expr.areReadable rest

def Filter.isReadable : Filter → Bool
  | ⟨terms, _⟩ => Expr.areReadable terms

def Select.isReadable : Select → Bool
  | ⟨table, _, _, _, columns, filter, joins, groups, _, _, recursion⟩ =>
    table.isSome && Expr.areReadable columns && filter.isReadable &&
      (joins.flatMap Join.raws).isEmpty && (groups.flatMap Grouping.raws).isEmpty &&
      recursion.isNone

end

theorem Expr.areReadable_iff (es : List Expr) :
    Expr.areReadable es = true ↔ ∀ e ∈ es, e.isReadable = true := by
  induction es with
  | nil => simp [Expr.areReadable]
  | cons e rest ih => simp [Expr.areReadable, ih]

theorem Expr.isReadable_comparison {c : ColumnName} {op : Operator} {v : Value}
    (h : comparisonCheck c op v = .ok ()) : (Expr.comparison c op v).isReadable = true := by
  cases op with
  | is | isNot =>
    cases hv : literal? v with
    | none => simp [comparisonCheck, hv] at h
    | some literal => simp [isReadable, hv]
  | _ => simp [isReadable]

mutual

theorem Expr.isReadable_of_check : (e : Expr) → e.raws = [] → e.recursions = [] →
    e.check = .ok () → e.isReadable = true
  | .raw r, hraws, _, _ | .rawColumn r, hraws, _, _ => by simp [Expr.raws] at hraws
  | .column c label, _, _, _ | .aggregate function c label, _, _, _
  | .datePart part c label, _, _, _ | .between c low high negated, _, _, _
  | .oneOf c values negated, _, _, _ => by
    simp [Expr.isReadable]
  | .comparison c op v, _, _, hcheck => by
    rw [Expr.check] at hcheck
    exact Expr.isReadable_comparison hcheck
  | .group f, hraws, hrecursions, hcheck => by
    rw [Expr.raws] at hraws
    rw [Expr.recursions] at hrecursions
    rw [Expr.check] at hcheck
    rw [Expr.isReadable]
    exact Filter.isReadable_of_check f hraws hrecursions hcheck
  | .existence q negated, hraws, hrecursions, hcheck => by
    rw [Expr.raws] at hraws
    rw [Expr.recursions] at hrecursions
    rw [Expr.check] at hcheck
    rw [Expr.isReadable]
    exact Select.isReadable_of_check q hraws hrecursions hcheck

theorem Expr.areReadable_of_check : (es : List Expr) → Expr.listRaws es = [] →
    Expr.listRecursions es = [] → Expr.checks es = .ok () → Expr.areReadable es = true
  | [], _, _, _ => by rw [Expr.areReadable]
  | e :: rest, hraws, hrecursions, hcheck => by
    rw [Expr.listRaws, List.append_eq_nil_iff] at hraws
    rw [Expr.listRecursions, List.append_eq_nil_iff] at hrecursions
    rw [Expr.checks, Except.bind_eq_ok] at hcheck
    obtain ⟨_, he, hrest⟩ := hcheck
    rw [Expr.areReadable, Expr.isReadable_of_check e hraws.1 hrecursions.1 he,
      Expr.areReadable_of_check rest hraws.2 hrecursions.2 hrest]
    rfl

theorem Filter.isReadable_of_check : (f : Filter) → f.raws = [] → f.recursions = [] →
    f.check = .ok () → f.isReadable = true
  | ⟨terms, connective⟩, hraws, hrecursions, hcheck => by
    rw [Filter.raws] at hraws
    rw [Filter.recursions] at hrecursions
    rw [Filter.check] at hcheck
    rw [Filter.isReadable]
    exact Expr.areReadable_of_check terms hraws hrecursions hcheck

/-- A query that is accepted and has neither raw SQL nor a recursion can be read. -/
theorem Select.isReadable_of_check : (q : Select) → q.raws = [] → q.recursions = [] →
    q.check = .ok () → q.isReadable = true
  | ⟨table, schema, tableAlias, distinct, columns, filter, joins, groups, sort, limits,
      recursion⟩, hraws, hrecursions, hcheck => by
    simp only [Select.raws, List.append_eq_nil_iff] at hraws
    simp only [Select.recursions, List.append_eq_nil_iff, Option.toList_eq_nil_iff] at hrecursions
    obtain ⟨⟨⟨hcolumns, hfilter⟩, hjoins⟩, hgroups⟩ := hraws
    obtain ⟨⟨hcolumns', hfilter'⟩, rfl⟩ := hrecursions
    obtain ⟨htable, hcolumnsCheck, hfilterCheck⟩ := Select.check_eq_ok hcheck
    simp [Select.isReadable, htable, hjoins, hgroups,
      Expr.areReadable_of_check columns hcolumns hcolumns' hcolumnsCheck,
      Filter.isReadable_of_check filter hfilter hfilter' hfilterCheck]

end

/-! ## What shows -/

mutual

theorem Expr.isVisible_layout (tableAlias : Option String) :
    (e : Expr) → e.isReadable = true → isVisible (e.layout tableAlias) = !e.isHollow
  | .raw r, h | .rawColumn r, h => by simp [Expr.isReadable] at h
  | .column c label, _ => by
    cases label <;>
      simp [Expr.layout, Expr.isHollow, labelled, Expr.columnLayout, Piece.isVisible]
  | .aggregate function c label, _ => by
    cases label <;>
      simp [Expr.layout, Expr.isHollow, labelled, Expr.aggregateLayout, Piece.isVisible]
  | .datePart part c label, _ => by
    cases label <;>
      simp [Expr.layout, Expr.isHollow, labelled, Expr.datePartLayout, Piece.isVisible]
  | .comparison c op v, _ => by
    simp [Expr.layout, Expr.isHollow, Expr.comparisonLayout, Expr.columnLayout, Piece.isVisible]
  | .between c low high negated, _ => by
    simp [Expr.layout, Expr.isHollow, Expr.betweenLayout, Expr.columnLayout, Piece.isVisible]
  | .oneOf c values negated, _ => by
    simp [Expr.layout, Expr.isHollow, Expr.oneOfLayout, Expr.columnLayout, Piece.isVisible]
  | .group f, h => by
    rw [Expr.isReadable] at h
    rw [Expr.layout, Expr.isHollow,
      isVisible_enclosed _ _ (by decide) (Filter.layout_eq_nil tableAlias f),
      Filter.isVisible_layout tableAlias f h]
  | .existence q negated, _ => by
    simp [Expr.layout, Expr.isHollow, Piece.isVisible]

theorem Expr.any_isVisible_layouts (tableAlias : Option String) : (es : List Expr) →
    Expr.areReadable es = true →
      (Expr.layouts tableAlias es).any isVisible = !Expr.areHollow es
  | [], _ => rfl
  | e :: rest, h => by
    rw [Expr.areReadable, Bool.and_eq_true] at h
    rw [Expr.layouts, List.any_cons, Expr.areHollow, Expr.isVisible_layout tableAlias e h.1,
      Expr.any_isVisible_layouts tableAlias rest h.2, Bool.not_and]

/-- A filter shows nothing exactly if it is hollow. -/
theorem Filter.isVisible_layout (tableAlias : Option String) :
    (f : Filter) → f.isReadable = true → isVisible (f.layout tableAlias) = !f.isHollow
  | ⟨terms, connective⟩, h => by
    rw [Filter.isReadable] at h
    rw [Filter.layout, Filter.isHollow, isVisible_joined,
      Expr.any_isVisible_layouts tableAlias terms h]

end

theorem Expr.layout_ne_nil (tableAlias : Option String) {e : Expr} (hreadable : e.isReadable = true)
    (hhollow : e.isHollow = false) : e.layout tableAlias ≠ [] := by
  intro h
  have hvisible := Expr.isVisible_layout tableAlias e hreadable
  simp [h, hhollow] at hvisible

theorem Filter.layout_eq_nil_iff (tableAlias : Option String) {f : Filter}
    (h : f.isReadable = true) : f.layout tableAlias = [] ↔ f.isHollow = true := by
  have hvisible := Filter.isVisible_layout tableAlias f h
  constructor
  · intro hnil
    rw [hnil] at hvisible
    simpa using hvisible
  · intro hhollow
    refine Filter.layout_eq_nil tableAlias f ?_
    rw [hvisible, hhollow]
    rfl

theorem Filter.layout_ne_nil (tableAlias : Option String) {f : Filter}
    (hreadable : f.isReadable = true) (hhollow : f.isHollow = false) :
    f.layout tableAlias ≠ [] := by
  rw [ne_eq, Filter.layout_eq_nil_iff tableAlias hreadable, hhollow]
  exact Bool.false_ne_true

namespace Expr

/-- The expressions with text. -/
def shown (es : List Expr) : List Expr := es.filter fun e => !e.isHollow

theorem mem_shown {es : List Expr} {e : Expr} :
    e ∈ shown es ↔ e ∈ es ∧ e.isHollow = false := by
  simp [shown]

theorem shown_eq_nil_iff (es : List Expr) : shown es = [] ↔ areHollow es = true := by
  induction es with
  | nil => simp [shown, areHollow]
  | cons e rest ih =>
    rw [shown, List.filter_cons, areHollow, ← shown]
    cases e.isHollow <;> simp [ih]

theorem normals_eq_map (tableAlias : Option String) (es : List Expr) :
    normals tableAlias es = (shown es).map (normal tableAlias) := by
  induction es with
  | nil => rfl
  | cons e rest ih =>
    rw [normals, ih, shown, shown, List.filter_cons]
    cases e.isHollow <;> rfl

/-- Only expressions with text are joined. -/
theorem joined_layouts (separator : String) (tableAlias : Option String) {es : List Expr}
    (h : areReadable es = true) :
    joined separator (layouts tableAlias es) =
      List.intercalate [.words separator] ((shown es).map (layout tableAlias)) := by
  have hkept : (layouts tableAlias es).filter isVisible =
      (shown es).map (layout tableAlias) := by
    induction es with
    | nil => rfl
    | cons e rest ih =>
      rw [areReadable, Bool.and_eq_true] at h
      rw [layouts, shown, List.filter_cons, List.filter_cons, isVisible_layout tableAlias e h.1,
        ih h.2, shown]
      cases e.isHollow <;> rfl
  rw [joined, hkept]

end Expr

end BoundSql
