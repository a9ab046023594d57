import BoundSql.Proofs.Reading.Clause

/-!
# Reading queries

A query is its select list and its clauses. With readers for the expressions and the filter in it,
a query is read back in its normal form: the wildcard that stands for an empty select list is read
as one.
-/
namespace BoundSql

open Text Layout

namespace Select

/-- What stands behind the select list. -/
def Arm.clauses (t : Target) (a : Arm) : Layout :=
  t.layout ++ headed " " (Join.clauseLayout a.joins) ++ headed " WHERE " a.filter ++
    headed " " (Grouping.clauseLayout t.tableAlias a.groups) ++ a.limits.layout ++
    SortKey.clauseLayout a.sort

/-- The rest of a query behind its select list. -/
def readClauses (n : Nat) (filter : MarkReader Filter) (distinct : Bool) (columns : List Expr) :
    MarkReader Select := fun ms => do
  let (t, ms) ← Target.read ms
  let (joins, ms) ← Join.readAll n ms
  let (filter, ms) ← optional " WHERE " filter .empty ms
  let (groups, ms) ← optional " GROUP BY " (many "," Grouping.read n) [] ms
  let (limits, ms) ← Limits.read ms
  let (sort, ms) ← SortKey.read ms
  return (⟨some t.table, t.schema, t.tableAlias, distinct, Expr.selected columns, filter, joins,
    groups, sort, limits, none⟩, ms)

/-- Reads a query, with readers for the expressions and the filter in it. -/
def readWith (n : Nat) (expr : MarkReader Expr) (filter : MarkReader Filter) :
    MarkReader Select := fun ms => do
  let (distinct, ms) ← optional "DISTINCT " (fun ms => some (true, ms)) false (← skip? "SELECT " ms)
  let (columns, ms) ← before (many "," expr n) " FROM " ms
  readClauses n filter distinct columns ms

/-- The texts that can stand behind a query. -/
def stops : List String := [" )"]

/-- The readers take the parts of a query: its expressions and its filter are read back in normal
form, and no list in it is too long. -/
structure TakesParts (n : Nat) (expr : MarkReader Expr) (filter : MarkReader Filter) (q : Select) :
    Prop where
  readable : q.isReadable = true
  shown : ∀ e ∈ Expr.shown q.columns,
    Takes Expr.stops expr (e.layout q.tableAlias) (e.normal q.tableAlias)
  star : Takes Expr.stops expr [.words "*"] .star
  predicates : q.filter.isHollow = false →
    Takes Filter.stops filter (q.filter.layout q.tableAlias) (q.filter.normal q.tableAlias)
  columns : q.columns.length < n
  joins : q.joins.length < n
  groups : q.groups.length < n

theorem isReadable_iff (q : Select) :
    q.isReadable = true ↔ (∃ table, q.table = some table) ∧ Expr.areReadable q.columns = true ∧
      q.filter.isReadable = true ∧ q.joins.flatMap Join.raws = [] ∧
      q.groups.flatMap Grouping.raws = [] ∧ q.recursion = none := by
  cases q
  simp only [isReadable, Bool.and_eq_true, List.isEmpty_iff, Option.isNone_iff_eq_none,
    Option.isSome_iff_exists, and_assoc]

theorem marks_layout {q : Select} (h : q.recursion = none) (rest : List Mark) :
    q.layout.marks ++ rest = Text.marks "SELECT " ++
      ((if q.distinct then Text.marks "DISTINCT " else []) ++
        (q.arm.columnList.marks ++ (Text.marks " FROM " ++
          ((q.arm.clauses q.target).marks ++ rest)))) := by
  have hselect : Text.marks (if q.distinct then "SELECT DISTINCT " else "SELECT ") =
      Text.marks "SELECT " ++ (if q.distinct then Text.marks "DISTINCT " else []) := by
    cases q.distinct <;> rfl
  have harm : q.arm.layout q.target =
      .words (if q.distinct then "SELECT DISTINCT " else "SELECT ") ::
        (q.arm.columnList ++ .words " FROM " :: q.arm.clauses q.target) := rfl
  rw [layout_eq_arm h, harm]
  simp only [Layout.marks_cons, Layout.marks_append, Piece.marks.eq_1, hselect, List.append_assoc]

/-- The select list has the expressions with text, or the wildcard if there are none. -/
theorem columnList_eq {q : Select} (h : Expr.areReadable q.columns = true) :
    q.arm.columnList = if (Expr.shown q.columns).isEmpty then [.words "*"] else
      List.intercalate [.words ","] ((Expr.shown q.columns).map (Expr.layout q.tableAlias)) := by
  rw [Arm.columnList, arm, Expr.joined_layouts "," q.tableAlias h]
  cases hshown : Expr.shown q.columns with
  | nil => rfl
  | cons e es =>
    obtain ⟨hmem, hhollow⟩ := Expr.mem_shown.1 (hshown ▸ List.mem_cons_self ..)
    have hne := Expr.layout_ne_nil q.tableAlias ((Expr.areReadable_iff q.columns).1 h e hmem)
      hhollow
    rw [List.map_cons, intercalate_cons]
    cases hl : e.layout q.tableAlias with
    | nil => exact absurd hl hne
    | cons p l => rfl

/-- A select list never begins with the word that makes the query distinct. -/
theorem skip?_columnList {q : Select} (h : Expr.areReadable q.columns = true) (rest : List Mark) :
    skip? "DISTINCT " (q.arm.columnList.marks ++ rest) = none := by
  rw [columnList_eq h]
  cases hshown : Expr.shown q.columns with
  | nil => exact skip?_clash (t := "*") (by decide) rest
  | cons e es =>
    obtain ⟨hmem, hhollow⟩ := Expr.mem_shown.1 (hshown ▸ List.mem_cons_self ..)
    have he := (Expr.areReadable_iff q.columns).1 h e hmem
    rw [List.isEmpty_cons, if_neg Bool.false_ne_true, List.map_cons, intercalate_cons,
      Layout.marks_append, List.append_assoc]
    exact Expr.skip?_distinct q.tableAlias he hhollow _

theorem optional_distinct {q : Select} (h : Expr.areReadable q.columns = true)
    (rest : List Mark) :
    optional "DISTINCT " (fun ms => some (true, ms)) false
      ((if q.distinct then Text.marks "DISTINCT " else []) ++ (q.arm.columnList.marks ++ rest)) =
        some (q.distinct, q.arm.columnList.marks ++ rest) := by
  cases q.distinct with
  | true => exact optional_marks rfl
  | false => exact optional_missing (skip?_columnList h rest)

section
variable {n : Nat} {expr : MarkReader Expr} {filter : MarkReader Filter} {q : Select}
  (hq : TakesParts n expr filter q)
include hq

/-- A select list without text is read as the wildcard that stands for it. -/
theorem before_columns (rest : List Mark) :
    ∃ es, before (many "," expr n) " FROM "
        (q.arm.columnList.marks ++ (Text.marks " FROM " ++ rest)) = some (es, rest) ∧
      Expr.selected es = Expr.selected (Expr.normals q.tableAlias q.columns) := by
  obtain ⟨-, hreadable, -⟩ := q.isReadable_iff.1 hq.readable
  have hfrom : Ends [" FROM "] (Text.marks " FROM " ++ rest) := ends_marks (by simp) rest
  have hcolumns := hq.columns
  have hlength : (Expr.shown q.columns).length ≤ n :=
    Nat.le_of_lt (Nat.lt_of_le_of_lt (List.length_filter_le ..) hcolumns)
  have hshownRead := hq.shown
  rw [Expr.normals_eq_map, columnList_eq hreadable]
  cases hshown : Expr.shown q.columns with
  | nil =>
    obtain ⟨n, rfl⟩ : ∃ m, n = m + 1 := ⟨n - 1, by omega⟩
    have hend : Ends Expr.stops (Text.marks " FROM " ++ rest) := hfrom.mono (by decide)
    have hcomma := skip?_clash (s := ",") (t := " FROM ") (by decide) rest
    have hread : many "," expr (n + 1) (Text.marks "*" ++ (Text.marks " FROM " ++ rest)) =
        some ([.star], Text.marks " FROM " ++ rest) := by
      have hstar : expr (Text.marks "*" ++ (Text.marks " FROM " ++ rest)) =
          some (.star, Text.marks " FROM " ++ rest) := hq.star _ hend
      simp [many, hstar, hcomma]
    exact ⟨[.star], before_eq hread, rfl⟩
  | cons e es =>
    rw [hshown] at hshownRead hlength
    have hread := many_intercalate "," (p := expr) (f := Expr.normal q.tableAlias)
      (g := Expr.layout q.tableAlias) (by decide)
      (fun e he => (hshownRead e he).mono (by decide)) (List.cons_ne_nil e es) hlength _ hfrom
    exact ⟨(e :: es).map (Expr.normal q.tableAlias), before_eq hread, rfl⟩

theorem optional_filter {rest : List Mark} (h : Ends Filter.stops rest) :
    optional " WHERE " filter .empty
      (Layout.marks (headed " WHERE " (q.filter.layout q.tableAlias)) ++ rest) =
        some (q.filter.normal q.tableAlias, rest) := by
  obtain ⟨-, -, hreadable, -⟩ := q.isReadable_iff.1 hq.readable
  cases hhollow : q.filter.isHollow with
  | true =>
    have hlayout := (Filter.layout_eq_nil_iff q.tableAlias hreadable).2 hhollow
    have hnormal : q.filter.normal q.tableAlias = .empty := by
      generalize q.filter = f at hhollow
      obtain ⟨terms, c⟩ := f
      rw [Filter.isHollow, ← Expr.shown_eq_nil_iff] at hhollow
      rw [Filter.normal, Expr.normals_eq_map, hhollow]
      rfl
    rw [hlayout, hnormal]
    exact optional_missing (h.skip?_eq_none (by decide))
  | false =>
    rw [headed_of_ne_nil (Filter.layout_ne_nil q.tableAlias hreadable hhollow), Layout.marks_cons,
      List.append_assoc]
    exact optional_marks (hq.predicates hhollow rest h)

/-- The clauses are read one by one, as each stops where the next begins. -/
theorem readClauses_layout (distinct : Bool) (columns : List Expr) {rest : List Mark}
    (h : Ends stops rest) :
    readClauses n filter distinct columns ((q.arm.clauses q.target).marks ++ rest) =
      some (⟨q.table, q.schema, q.tableAlias, distinct, Expr.selected columns,
        q.filter.normal q.tableAlias, q.joins, q.groups.map (Grouping.under q.tableAlias), q.sort,
        q.limits, none⟩, rest) := by
  obtain ⟨⟨table, htable⟩, -, -, hjoinRaws, hgroupRaws, -⟩ := q.isReadable_iff.1 hq.readable
  -- What stands behind a clause is known from the last clause to the first.
  have hsort := SortKey.ends_clauseLayout q.sort h
  have hlimits := q.limits.ends_layout hsort
  have hgroup := Grouping.ends_clauseLayout q.tableAlias q.groups hlimits
  have hwhere := hgroup.headed " WHERE " (q.filter.layout q.tableAlias)
  have hjoin := Join.ends_flatMap q.joins hwhere
  have hreadSort := SortKey.read_layout q.sort (h.skip?_eq_none (by decide))
  have hreadLimits := q.limits.read_layout (hsort.skip?_eq_none (by decide))
    (hsort.skip?_eq_none (by decide))
  have hreadGroups := Grouping.optional_clauseLayout q.tableAlias hgroupRaws
    (Nat.le_of_lt hq.groups) hlimits
  have hreadFilter := optional_filter hq hgroup
  have hreadJoins := Join.readAll_layout hjoinRaws hq.joins hwhere
  have hreadTarget := q.target.read_layout (hjoin.skip?_eq_none (by decide))
    (hjoin.skip?_eq_none (by decide))
  -- The reader builds the query from the fields of its target.
  have halias : q.target.tableAlias = q.tableAlias := rfl
  have hschema : q.target.schema = q.schema := rfl
  have hname : some q.target.table = q.table := by
    rw [target, htable]
    rfl
  rw [Arm.clauses, arm, Join.headed_clauseLayout, halias]
  simp only [Layout.marks_append, List.append_assoc]
  simp only [readClauses, hreadTarget, hreadJoins, hreadFilter, hreadGroups, hreadLimits, hreadSort,
    Option.bind_eq_bind, Option.bind_some, halias, hschema, hname]
  rfl

/-- A query is read back in its normal form, if its parts are. -/
theorem readWith_layout : Takes stops (readWith n expr filter) q.layout q.normal := by
  intro rest h
  obtain ⟨-, hcolumns, -, -, -, hrecursion⟩ := q.isReadable_iff.1 hq.readable
  obtain ⟨es, hreadColumns, hselected⟩ := before_columns hq
    ((q.arm.clauses q.target).marks ++ rest)
  have hreadDistinct := optional_distinct hcolumns
    (Text.marks " FROM " ++ ((q.arm.clauses q.target).marks ++ rest))
  have hreadClauses := readClauses_layout hq q.distinct es h
  rw [marks_layout hrecursion, readWith, skip?_marks]
  simp only [hreadDistinct, hreadColumns, hreadClauses, hselected, Option.bind_eq_bind,
    Option.bind_some]
  cases q
  obtain rfl := hrecursion
  rw [normal]

end
end Select
end BoundSql
