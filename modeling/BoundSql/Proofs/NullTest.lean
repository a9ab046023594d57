import BoundSql.Proofs.Layout.Query
import BoundSql.Select.Build

/-!
# Comparisons with null

Comparisons that are built one by one turn equality with null into a test for null, which binds
nothing. A comparison that a document gives is taken as it stands. The two ways differ by one
placeholder and one binding for every equality with null, and in nothing else: a statement without
such equalities is the same statement when each of its comparisons is built again.
-/
namespace BoundSql

/-! ## Building comparisons again -/

mutual

/-- The expression with each of its comparisons built again. -/
def Expr.rebuilt : Expr → Expr
  | .comparison c op value => .compare c op value
  | .group filter => .group filter.rebuilt
  | .existence query negated => .existence query.rebuilt negated
  | .raw sql => .raw sql
  | .column c label => .column c label
  | .aggregate function c label => .aggregate function c label
  | .rawColumn sql => .rawColumn sql
  | .datePart part c label => .datePart part c label
  | .between c low high negated => .between c low high negated
  | .oneOf c values negated => .oneOf c values negated

def Expr.rebuiltList : List Expr → List Expr
  | [] => []
  | e :: rest => e.rebuilt :: Expr.rebuiltList rest

def Filter.rebuilt : Filter → Filter
  | ⟨terms, connective⟩ => ⟨Expr.rebuiltList terms, connective⟩

def Select.rebuilt : Select → Select
  | ⟨table, schema, tableAlias, distinct, columns, filter, joins, groups, sort, limits,
      recursion⟩ =>
    ⟨table, schema, tableAlias, distinct, Expr.rebuiltList columns, filter.rebuilt, joins, groups,
      sort, limits, recursion⟩

end

def Query.rebuilt : Query → Query
  | .select q => .select q.rebuilt
  | .update q => .update { q with filter := q.filter.rebuilt }
  | .delete q => .delete { q with filter := q.filter.rebuilt }
  | q => q

/-! ## Equalities with null -/

/-- `=`, `!=` or `<>` with null on its right side. -/
def Operator.isNullEquality (op : Operator) (value : Value) : Bool :=
  match op, value with
  | .eq, .null | .ne, .null | .ltGt, .null => true
  | _, _ => false

mutual

/-- How many equalities with null an expression has written. -/
def Expr.nullEqualities : Expr → Nat
  | .comparison _ op value => (op.isNullEquality value).toNat
  | .group filter => filter.nullEqualities
  | .existence query _ => query.nullEqualities
  | .raw _ | .column .. | .aggregate .. | .rawColumn _ | .datePart .. | .between .. | .oneOf .. => 0

def Expr.listNullEqualities : List Expr → Nat
  | [] => 0
  | e :: rest => e.nullEqualities + Expr.listNullEqualities rest

def Filter.nullEqualities : Filter → Nat
  | ⟨terms, _⟩ => Expr.listNullEqualities terms

/-- A recursive query writes its select list in both arms. -/
def Select.nullEqualities : Select → Nat
  | ⟨_, _, _, _, columns, filter, _, _, _, _, recursion⟩ =>
    Expr.listNullEqualities columns + filter.nullEqualities +
      if recursion.isSome then Expr.listNullEqualities columns else 0

end

/-- A truncated table has no filter. -/
def Query.nullEqualities : Query → Nat
  | .select q => q.nullEqualities
  | .update q => q.filter.nullEqualities
  | .delete q => if q.truncate then 0 else q.filter.nullEqualities
  | _ => 0

/-! ## Layouts with fewer bindings -/

namespace Layout

/-- The first layout shows exactly if the second does and saves `n` bindings of it; if it saves
none, both are written alike. -/
structure Spares (d : Dialect) (n : Nat) (k l : Layout) : Prop where
  visible : isVisible k = isVisible l
  shows : n ≠ 0 → isVisible l = true
  bindings : (write d l).bindings.length = (write d k).bindings.length + n
  write_eq : n = 0 → write d k = write d l

namespace Spares
variable {d : Dialect} {n m : Nat} {k l k' l' : Layout}

theorem refl (d : Dialect) (l : Layout) : Spares d 0 l l :=
  ⟨rfl, fun h => absurd rfl h, rfl, fun _ => rfl⟩

theorem append (h : Spares d n k l) (h' : Spares d m k' l') :
    Spares d (n + m) (k ++ k') (l ++ l') where
  visible := by rw [isVisible_append, isVisible_append, h.visible, h'.visible]
  shows hnm := by
    rw [isVisible_append, Bool.or_eq_true]
    rcases Nat.eq_zero_or_pos n with rfl | hn
    · exact .inr (h'.shows (by omega))
    · exact .inl (h.shows (by omega))
  bindings := by
    have hl := h.bindings
    have hl' := h'.bindings
    rw [write_append, write_append, Fragment.bindings_append, Fragment.bindings_append,
      List.length_append, List.length_append]
    omega
  write_eq hnm := by
    rw [write_append, write_append, h.write_eq (by omega), h'.write_eq (by omega)]

theorem cons (p : Piece) (h : Spares d n k l) : Spares d n (p :: k) (p :: l) := by
  have hcons := append (refl d [p]) h
  rwa [Nat.zero_add] at hcons

theorem append_right (h : Spares d n k l) (m : Layout) : Spares d n (k ++ m) (l ++ m) :=
  append h (refl d m)

theorem append_left (m : Layout) (h : Spares d n k l) : Spares d n (m ++ k) (m ++ l) := by
  have happend := append (refl d m) h
  rwa [Nat.zero_add] at happend

/-- What does not show saves nothing. -/
theorem eq_zero (h : Spares d n k l) (hl : isVisible l = false) : n = 0 :=
  Decidable.byContradiction fun hn => Bool.false_ne_true (hl.symm.trans (h.shows hn))

section
variable (h : Spares d n k l) (hk : isVisible k = false → k = [])
  (hl : isVisible l = false → l = [])
include h hk hl

/-- Both parts are missing, or neither is. -/
theorem nil_or_cons : (n = 0 ∧ k = [] ∧ l = []) ∨ ∃ p k' q l', k = p :: k' ∧ l = q :: l' := by
  cases hv : isVisible l with
  | false => exact .inl ⟨h.eq_zero hv, hk (h.visible.trans hv), hl hv⟩
  | true =>
    have hv' := h.visible.trans hv
    cases k with
    | nil => cases hv'
    | cons p k =>
      cases l with
      | nil => cases hv
      | cons q l => exact .inr ⟨p, k, q, l, rfl, rfl⟩

theorem headed (before : String) : Spares d n (headed before k) (headed before l) := by
  rcases h.nil_or_cons hk hl with ⟨rfl, rfl, rfl⟩ | ⟨p, k, q, l, rfl, rfl⟩
  · exact refl d []
  · exact h.cons (.words before)

theorem enclosed (before after : String) :
    Spares d n (enclosed before after k) (enclosed before after l) := by
  rcases h.nil_or_cons hk hl with ⟨rfl, rfl, rfl⟩ | ⟨p, k, q, l, rfl, rfl⟩
  · exact refl d []
  · exact (h.append_right [.words after]).cons (.words before)

end

theorem joined_cons {separator : String} {ks ls : List Layout} (h : Spares d n k l)
    (hrest : Spares d m (joined separator ks) (joined separator ls)) :
    Spares d (n + m) (joined separator (k :: ks)) (joined separator (l :: ls)) := by
  rw [Layout.joined_cons, Layout.joined_cons, h.visible, hrest.visible]
  split
  · split
    · exact h.append (hrest.cons (.words separator))
    · rename_i hv
      rw [hrest.eq_zero (by simpa using hv)]
      exact h
  · rename_i hv
    rw [h.eq_zero (by simpa using hv), Nat.zero_add]
    exact hrest

end Spares
end Layout

open Layout

/-! ## Comparisons built again -/

namespace Expr

/-- A test for null stands in the place of an operator and a placeholder. -/
theorem spares_nullTest (d : Dialect) {op test : Operator} (hop : op.isNullEquality .null = true)
    (htest : test.isNullTest = true) :
    Spares d 1 (.words " " :: .words test.keyword :: operandLayout test .null)
      (.words " " :: .words op.keyword :: operandLayout op .null) := by
  have hnone : operandLayout test .null = [] := by
    cases test <;> first | rfl | cases htest
  have hvalue : operandLayout op .null = [.words " ", .value .null] := by
    cases op <;> first | rfl | cases hop
  rw [hnone, hvalue]
  exact ⟨rfl, fun _ => rfl, by simp [Piece.sql], fun h => absurd h (by decide)⟩

/-- `IS NULL` is one keyword or two. -/
theorem spares_keyword (d : Dialect) {op : Operator} (hop : op = .is ∨ op = .isNot) :
    Spares d 0
      (.words " " :: .words (nullSafe op .null).keyword :: operandLayout (nullSafe op .null) .null)
      (.words " " :: .words op.keyword :: operandLayout op .null) := by
  refine ⟨rfl, fun h => absurd rfl h, ?_, fun _ => ?_⟩
  · rcases hop with rfl | rfl <;> rfl
  · rcases hop with rfl | rfl <;> apply Fragment.ext_chars <;>
      simp [Piece.sql, operandLayout, nullSafe, literal?] <;> rfl

/-- Only an equality with null is written in another way. -/
theorem spares_compare (d : Dialect) (tableAlias : Option String) (c : ColumnName) (op : Operator)
    (value : Value) :
    Spares d (op.isNullEquality value).toNat ((compare c op value).layout tableAlias)
      ((comparison c op value).layout tableAlias) := by
  have hbehind := fun n k l => Spares.append_left (d := d) (n := n) (k := k) (l := l)
    (columnLayout tableAlias c)
  cases value with
  | null =>
    cases op with
    | eq | ne | ltGt => exact hbehind _ _ _ (spares_nullTest d rfl rfl)
    | is => exact hbehind _ _ _ (spares_keyword d (.inl rfl))
    | isNot => exact hbehind _ _ _ (spares_keyword d (.inr rfl))
    | gt | gte | lt | lte | like | notLike | isNull | isNotNull => exact .refl d _
  | _ => cases op <;> exact .refl d _

/-- A comparison is refused as before when it is built again. -/
theorem check_compare (c : ColumnName) (op : Operator) (value : Value) :
    (compare c op value).check = (comparison c op value).check := by
  cases op <;> cases value <;> rfl

theorem isWildcard_rebuilt (e : Expr) : e.rebuilt.isWildcard = e.isWildcard := by
  cases e <;> rfl

theorem rebuiltList_eq_map (es : List Expr) : rebuiltList es = es.map rebuilt := by
  induction es with
  | nil => rfl
  | cons e rest ih => rw [rebuiltList, ih, List.map_cons]

theorem nameColumns_rebuiltList (es : List Expr) :
    nameColumns (rebuiltList es) = nameColumns es := by
  rw [rebuiltList_eq_map, nameColumns, nameColumns, List.isEmpty_map, List.any_map]
  rw [show isWildcard ∘ rebuilt = isWildcard from funext isWildcard_rebuilt]

end Expr

/-! ## Checks -/

mutual

theorem Expr.check_rebuilt : (e : Expr) → e.rebuilt.check = e.check
  | .comparison c op value => by
    rw [Expr.rebuilt, Expr.check_compare]
  | .group filter => by
    rw [Expr.rebuilt, Expr.check, Expr.check, Filter.check_rebuilt filter]
  | .existence query negated => by
    rw [Expr.rebuilt, Expr.check, Expr.check, Select.check_rebuilt query]
  | .raw sql | .rawColumn sql => by rw [Expr.rebuilt]
  | .column c label | .aggregate function c label | .datePart part c label => by
    rw [Expr.rebuilt]
  | .between c low high negated | .oneOf c values negated => by rw [Expr.rebuilt]

theorem Expr.checks_rebuilt : (es : List Expr) →
    Expr.checks (Expr.rebuiltList es) = Expr.checks es
  | [] => by rw [Expr.rebuiltList]
  | e :: rest => by
    rw [Expr.rebuiltList, Expr.checks, Expr.checks, Expr.check_rebuilt e,
      Expr.checks_rebuilt rest]

theorem Filter.check_rebuilt : (f : Filter) → f.rebuilt.check = f.check
  | ⟨terms, connective⟩ => by
    rw [Filter.rebuilt, Filter.check, Filter.check, Expr.checks_rebuilt terms]

theorem Select.check_rebuilt : (q : Select) → q.rebuilt.check = q.check
  | ⟨table, schema, tableAlias, distinct, columns, filter, joins, groups, sort, limits,
      recursion⟩ => by
    rw [Select.rebuilt, Select.check, Select.check, Expr.nameColumns_rebuiltList,
      Expr.checks_rebuilt columns, Filter.check_rebuilt filter]

end

theorem Query.check_rebuilt (q : Query) : q.rebuilt.check = q.check := by
  cases q with
  | select q => exact Select.check_rebuilt q
  | update q => simp only [rebuilt, check, Update.check, Filter.check_rebuilt]
  | delete q => simp only [rebuilt, check, Delete.check, Filter.check_rebuilt]
  | insert q | createTable q | createIndex q => rfl

/-! ## Layouts -/

namespace Select.Arm

/-- What an arm saves is saved in its select list or in its filter. -/
theorem spares_layout {d : Dialect} {n m : Nat} (t : Target) (a : Arm) {columns filter : Layout}
    (hcolumns : Spares d n columns a.columns) (hfilter : Spares d m filter a.filter)
    (hc : isVisible columns = false → columns = [])
    (hc' : isVisible a.columns = false → a.columns = [])
    (hf : isVisible filter = false → filter = [])
    (hf' : isVisible a.filter = false → a.filter = []) :
    Spares d (n + m) ({ a with columns, filter }.layout t) (a.layout t) := by
  have hlist : Spares d n { a with columns, filter }.columnList a.columnList := by
    unfold columnList
    rcases hcolumns.nil_or_cons hc hc' with ⟨rfl, rfl, hnil⟩ | ⟨p, k, q, l, rfl, hcons⟩
    · rw [hnil]
      exact .refl d _
    · rw [hcons] at hcolumns ⊢
      exact hcolumns
  have hwhere := hfilter.headed hf hf' " WHERE "
  refine Spares.cons _ (hlist.append (Spares.cons _ ?_))
  refine Spares.append_right (Spares.append_right (Spares.append_right ?_ _) _) _
  exact Spares.append_left _ hwhere

end Select.Arm

section
variable (d : Dialect)

/-- A select list is written under one alias in each arm. -/
theorem Select.spares_of_parts {d : Dialect} {q : Select}
    (hcolumns : ∀ name, Spares d (Expr.listNullEqualities q.columns)
      (joined "," (Expr.layouts name (Expr.rebuiltList q.columns)))
      (joined "," (Expr.layouts name q.columns)))
    (hfilter : Spares d q.filter.nullEqualities (q.filter.rebuilt.layout q.tableAlias)
      (q.filter.layout q.tableAlias)) :
    Spares d q.nullEqualities q.rebuilt.layout q.layout := by
  have hempty := Filter.layout_eq_nil q.tableAlias q.filter
  have hempty' := Filter.layout_eq_nil q.tableAlias q.filter.rebuilt
  have hrecursion : q.rebuilt.recursion = q.recursion := by
    cases q
    rw [rebuilt]
  have hcount : q.nullEqualities = Expr.listNullEqualities q.columns + q.filter.nullEqualities +
      if q.recursion.isSome then Expr.listNullEqualities q.columns else 0 := by
    cases q
    rw [nullEqualities]
  have harm := Arm.spares_layout q.target q.arm (hcolumns q.tableAlias) hfilter joined_eq_nil
    joined_eq_nil hempty' hempty
  cases hr : q.recursion with
  | none =>
    rw [layout_eq_arm hr, layout_eq_arm (hrecursion.trans hr), hcount, hr]
    cases q
    exact harm
  | some r =>
    have hinitial := Arm.spares_layout q.target q.initialArm (hcolumns q.tableAlias) hfilter
      joined_eq_nil joined_eq_nil hempty' hempty
    have hlist : Spares d (Expr.listNullEqualities q.columns)
        (Recursion.memberLayout
          (Expr.layouts (some Recursion.memberAlias) (Expr.rebuiltList q.columns)))
        (Recursion.memberLayout (Expr.layouts (some Recursion.memberAlias) q.columns)) := by
      have hjoined := hcolumns (some Recursion.memberAlias)
      cases hq : q.columns with
      | nil => exact .refl d _
      | cons e rest =>
        rw [hq] at hjoined
        exact hjoined
    have hmember := Arm.spares_layout q.memberTarget (q.memberArm r) hlist (.refl d _)
      (Recursion.memberLayout_eq_nil _) (Recursion.memberLayout_eq_nil _) (fun _ => rfl)
      (fun _ => rfl)
    rw [layout_eq_arms hr, layout_eq_arms (hrecursion.trans hr), hcount, hr]
    cases q
    refine Spares.cons _ (hinitial.append (Spares.cons _ ?_))
    exact hmember.append_right _

mutual

theorem Expr.spares_layout (tableAlias : Option String) : (e : Expr) →
    Spares d e.nullEqualities (e.rebuilt.layout tableAlias) (e.layout tableAlias)
  | .comparison c op value => by
    rw [Expr.rebuilt, Expr.nullEqualities]
    exact Expr.spares_compare d tableAlias c op value
  | .group filter => by
    rw [Expr.rebuilt, Expr.nullEqualities, Expr.layout, Expr.layout]
    exact (Filter.spares_layout tableAlias filter).enclosed
      (Filter.layout_eq_nil tableAlias filter.rebuilt) (Filter.layout_eq_nil tableAlias filter) _ _
  | .existence query negated => by
    rw [Expr.rebuilt, Expr.nullEqualities, Expr.layout, Expr.layout]
    exact Spares.append_left _ (((Select.spares_layout query).append_right _).cons _)
  | .raw sql | .rawColumn sql => by
    rw [Expr.rebuilt, Expr.nullEqualities]
    exact .refl d _
  | .column c label | .aggregate function c label | .datePart part c label => by
    rw [Expr.rebuilt, Expr.nullEqualities]
    exact .refl d _
  | .between c low high negated | .oneOf c values negated => by
    rw [Expr.rebuilt, Expr.nullEqualities]
    exact .refl d _

theorem Expr.spares_layouts (tableAlias : Option String) (separator : String) :
    (es : List Expr) →
    Spares d (Expr.listNullEqualities es)
      (joined separator (Expr.layouts tableAlias (Expr.rebuiltList es)))
      (joined separator (Expr.layouts tableAlias es))
  | [] => .refl d _
  | e :: rest => by
    rw [Expr.rebuiltList, Expr.layouts, Expr.layouts, Expr.listNullEqualities]
    exact (Expr.spares_layout tableAlias e).joined_cons
      (Expr.spares_layouts tableAlias separator rest)

theorem Filter.spares_layout (tableAlias : Option String) : (f : Filter) →
    Spares d f.nullEqualities (f.rebuilt.layout tableAlias) (f.layout tableAlias)
  | ⟨terms, connective⟩ => by
    rw [Filter.rebuilt, Filter.nullEqualities, Filter.layout, Filter.layout]
    exact Expr.spares_layouts tableAlias _ terms

theorem Select.spares_layout : (q : Select) →
    Spares d q.nullEqualities q.rebuilt.layout q.layout
  | ⟨table, schema, tableAlias, distinct, columns, filter, joins, groups, sort, limits,
      recursion⟩ => by
    exact Select.spares_of_parts (fun name => Expr.spares_layouts name "," columns)
      (Filter.spares_layout tableAlias filter)

end

theorem Query.spares_layout (q : Query) :
    Spares d q.nullEqualities q.rebuilt.layout q.layout := by
  have hclause : ∀ (tableAlias : Option String) (f : Filter),
      Spares d f.nullEqualities (headed " WHERE " (f.rebuilt.layout tableAlias))
        (headed " WHERE " (f.layout tableAlias)) := fun tableAlias f =>
    (Filter.spares_layout d tableAlias f).headed (Filter.layout_eq_nil tableAlias f.rebuilt)
      (Filter.layout_eq_nil tableAlias f) _
  cases q with
  | select q => exact Select.spares_layout d q
  | update q =>
    refine Spares.cons _ (Spares.append_left _ (Spares.cons _ (Spares.append_left _ ?_)))
    exact hclause q.tableAlias q.filter
  | delete q =>
    obtain ⟨table, schema, tableAlias, filter, limits, truncate⟩ := q
    cases truncate with
    | true => exact .refl d _
    | false =>
      refine Spares.cons _ (Spares.append_right (Spares.append_left _ ?_) _)
      exact hclause tableAlias filter
  | insert q | createTable q | createIndex q => exact .refl d _

end

/-! ## Statements -/

/-- A statement whose comparisons are all built again is refused for the same reason. Otherwise it
has one binding less for each equality with null, and without any it is the same. -/
theorem Query.sql_rebuilt {d : Dialect} (hd : d.Visible) (q : Query) :
    (∀ e, q.sql d = .error e → q.rebuilt.sql d = .error e) ∧
      ∀ f, q.sql d = .ok f → ∃ g, q.rebuilt.sql d = .ok g ∧
        f.bindings.length = g.bindings.length + q.nullEqualities ∧
        (g = f ↔ q.nullEqualities = 0) := by
  have hspares := q.spares_layout d
  rw [sql_eq hd, sql_eq hd, check_rebuilt]
  cases q.check with
  | error e =>
    refine ⟨fun _ h => h, ?_⟩
    intro f h
    cases h
  | ok u =>
    constructor
    · intro e h
      cases h
    · rintro f ⟨⟩
      refine ⟨_, rfl, hspares.bindings, fun h => ?_, hspares.write_eq⟩
      have hlength := hspares.bindings
      change write d q.rebuilt.layout = write d q.layout at h
      rw [h] at hlength
      omega

/-- A walk down the tasks with three equalities with null: one in the select list, which both arms
repeat, and one in the filter of a query in the filter. -/
def Query.openTasks : Query :=
  .select
    { Select.ofTable "task" with
      columns := [.comparison (.plain "due") .ne .null]
      filter :=
        ⟨[.group
            ⟨[.comparison (.plain "done") .is .null, .comparison (.plain "rank") .lt .null], .or⟩,
          .existence
            { Select.ofTable "user" with
              filter := ⟨[.comparison (.plain "left") .eq .null], .and⟩ } false], .and⟩
      recursion := some ⟨"parent", "id"⟩ }

theorem Query.sql_rebuilt_openTasks :
    Dialect.mysql.Visible ∧ Query.openTasks.nullEqualities = 3 ∧
      ∃ f g, Query.openTasks.sql .mysql = .ok f ∧ f.bindings = [.null, .null, .null, .null] ∧
        Query.openTasks.rebuilt.sql .mysql = .ok g ∧
        f.bindings.length = g.bindings.length + 3 ∧ g ≠ f := by
  have hsql : Query.openTasks.sql .mysql = .ok (Query.openTasks.layout.write .mysql) :=
    (Query.sql_eq_ok_iff Dialect.visible_mysql).2 ⟨rfl, rfl⟩
  obtain ⟨g, hg, hlength, heq⟩ :=
    (Query.sql_rebuilt Dialect.visible_mysql Query.openTasks).2 _ hsql
  refine ⟨Dialect.visible_mysql, rfl, _, g, hsql, rfl, hg, hlength, fun h => ?_⟩
  exact absurd (heq.1 h) (by decide)

/-- An update whose filter compares with null. -/
def Query.nullUpdate : Query :=
  .update
    { Update.ofTable "t" with
      assignments := [("x", .int 1)]
      filter := ⟨[.comparison (.plain "Id") .eq .null], .and⟩ }

/-- Its document, in which the comparison has no value. -/
def Query.nullUpdateDocument : Json :=
  .object [("update", .object
    [("table", .string "t"), ("values", .array [.array [.string "x", .whole ⟨1, by decide⟩]]),
      ("where", .object [("statements", .array [.object [("comparison", .object
        [("column", .object [("name", .string "Id")]), ("op", .string "eq")])]])])])]

/-- The update that the document gives compares with a placeholder that is bound to null; with its
comparison built again it tests for null and binds nothing. -/
theorem Query.rebuilt_nullUpdate :
    Query.ofJson? Query.nullUpdateDocument = some Query.nullUpdate ∧
      Query.nullUpdate.sql .mysql =
        .ok ⟨"UPDATE \x60t\x60 SET \x60x\x60 = ? WHERE \x60Id\x60 = ?", [.int 1, .null]⟩ ∧
      Query.nullUpdate.rebuilt.sql .mysql =
        .ok ⟨"UPDATE \x60t\x60 SET \x60x\x60 = ? WHERE \x60Id\x60 IS NULL", [.int 1]⟩ ∧
      Query.nullUpdate.rebuilt.sql .mysql ≠ Query.nullUpdate.sql .mysql := by
  have hwritten : Query.nullUpdate.sql .mysql =
      .ok ⟨"UPDATE \x60t\x60 SET \x60x\x60 = ? WHERE \x60Id\x60 = ?", [.int 1, .null]⟩ :=
    (Query.sql_eq_ok_iff Dialect.visible_mysql).2 ⟨rfl, Fragment.ext (by decide) rfl⟩
  have hrebuilt : Query.nullUpdate.rebuilt.sql .mysql =
      .ok ⟨"UPDATE \x60t\x60 SET \x60x\x60 = ? WHERE \x60Id\x60 IS NULL", [.int 1]⟩ :=
    (Query.sql_eq_ok_iff Dialect.visible_mysql).2 ⟨rfl, Fragment.ext (by decide) rfl⟩
  have hdocument : Query.ofJson? Query.nullUpdateDocument = some Query.nullUpdate := by
    have hterm : Expr.ofJson? (.object [("comparison", .object
        [("column", .object [("name", .string "Id")]), ("op", .string "eq")])]) =
          some (.comparison (.plain "Id") .eq .null) := by
      rw [Expr.ofJson?]
      rfl
    have hfilter : Filter.ofJson? (.object [("statements", .array [.object [("comparison", .object
        [("column", .object [("name", .string "Id")]), ("op", .string "eq")])]])]) =
          some ⟨[.comparison (.plain "Id") .eq .null], .and⟩ := by
      rw [Filter.ofJson?]
      simp [Json.fields?, Json.member?, Expr.listOfJson?, Json.items?, Json.parts, hterm]
      rfl
    simp [Query.ofJson?, Query.nullUpdateDocument, Json.variant?, Update.ofJson?, Json.fields?,
      Json.member?, Json.defaulted, hfilter]
    rfl
  refine ⟨hdocument, hwritten, hrebuilt, fun h => ?_⟩
  rw [hwritten, hrebuilt] at h
  have hlength := congrArg (fun f : Fragment => f.bindings.length) (Except.ok.inj h)
  cases hlength

end BoundSql
