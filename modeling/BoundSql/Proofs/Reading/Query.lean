import BoundSql.Proofs.Reading.Stable

/-!
# Reading statements back

Expressions, filters and queries are nested in each other, so the readers take turns. A statement
without raw SQL and recursions is read back in its normal form.
-/
namespace BoundSql

open Text Layout

/-- Reads an expression that is not nested too deeply. -/
def Expr.read : Nat → MarkReader Expr
  | 0 => fun _ => none
  | n + 1 => Expr.readWith (Filter.readWith n (Expr.read n))
      (Select.readWith n (Expr.read n) (Filter.readWith n (Expr.read n)))

def Filter.read (n : Nat) : MarkReader Filter := Filter.readWith n (Expr.read n)

def Select.read (n : Nat) : MarkReader Select :=
  Select.readWith n (Expr.read n) (Filter.read n)

theorem Expr.read_succ (n : Nat) :
    Expr.read (n + 1) = Expr.readWith (Filter.read n) (Select.read n) := rfl

theorem Expr.takes_star {n : Nat} (hn : 0 < n) :
    Takes Expr.stops (Expr.read n) [.words "*"] .star := by
  obtain ⟨n, rfl⟩ : ∃ m, n = m + 1 := ⟨n - 1, by omega⟩
  intro rest hrest
  rw [Expr.read_succ]
  exact Expr.readWith_column (Filter.read n) (Select.read n) (.plain "*") hrest

theorem Text.length_lt_sizeOf {α : Type} [SizeOf α] (as : List α) : as.length < sizeOf as := by
  induction as with
  | nil => simp
  | cons a as ih =>
    simp
    omega

-- Every part is smaller than what it is part of, so a reader that may call others as often as the
-- size says reaches all parts. The induction is on the syntax, with the bound general.
mutual

/-- An expression with text is read back in its normal form. -/
theorem Expr.takes_layout (tableAlias : Option String) : (e : Expr) → {n : Nat} → sizeOf e ≤ n →
    e.isReadable = true → e.isHollow = false →
      Takes Expr.stops (Expr.read n) (e.layout tableAlias) (e.normal tableAlias)
  | e, 0, hn, _, _ => by cases e <;> simp at hn
  | .raw r, n + 1, _, h, _ | .rawColumn r, n + 1, _, h, _ => by simp [Expr.isReadable] at h
  | .column c label, n + 1, _, _, _ => fun rest hrest =>
    Expr.readWith_labelled (Filter.read n) (Select.read n) tableAlias c hrest label
  | .aggregate function c label, n + 1, _, _, _ => fun rest hrest =>
    Expr.readWith_aggregate (Filter.read n) (Select.read n) tableAlias c function hrest label
  | .datePart part c label, n + 1, _, _, _ => fun rest hrest =>
    Expr.readWith_datePart (Filter.read n) (Select.read n) tableAlias c part hrest label
  | .comparison c op v, n + 1, _, h, _ => fun rest _ =>
    Expr.readWith_comparison (Filter.read n) (Select.read n) tableAlias c h rest
  | .between c low high negated, n + 1, _, _, _ => fun rest _ =>
    Expr.readWith_between (Filter.read n) (Select.read n) tableAlias c low high negated rest
  | .oneOf c values negated, n + 1, _, _, _ => fun rest _ =>
    Expr.readWith_oneOf (Filter.read n) (Select.read n) tableAlias c values negated rest
  | .group f, n + 1, hn, h, hhollow => by
    have hsize : sizeOf f ≤ n := by
      simp at hn
      omega
    rw [Expr.isReadable] at h
    rw [Expr.isHollow] at hhollow
    intro rest _
    rw [Expr.read_succ]
    apply Expr.readWith_group _ _ _ (Filter.layout_ne_nil tableAlias h hhollow)
    exact Filter.takes_layout tableAlias f hsize h hhollow _ (ends_marks (by decide) rest)
  | .existence q negated, n + 1, hn, h, _ => by
    have hsize : sizeOf q ≤ n := by
      simp at hn
      omega
    rw [Expr.isReadable] at h
    intro rest _
    rw [Expr.read_succ]
    apply Expr.readWith_existence
    exact Select.takes_layout q hsize h _ (ends_marks (by decide) rest)

theorem Expr.takes_layouts (tableAlias : Option String) : (es : List Expr) → {n : Nat} →
    sizeOf es ≤ n → Expr.areReadable es = true → ∀ e ∈ Expr.shown es,
      Takes Expr.stops (Expr.read n) (e.layout tableAlias) (e.normal tableAlias)
  | [], _, _, _ => by simp [Expr.shown]
  | e :: rest, n, hn, h => by
    have hsizes : sizeOf e ≤ n ∧ sizeOf rest ≤ n := by
      simp at hn
      omega
    rw [Expr.areReadable, Bool.and_eq_true] at h
    have hfirst := Expr.takes_layout tableAlias e hsizes.1 h.1
    have hothers := Expr.takes_layouts tableAlias rest hsizes.2 h.2
    intro e' he'
    obtain ⟨hmem, hhollow⟩ := Expr.mem_shown.1 he'
    rcases List.mem_cons.1 hmem with rfl | hmem
    · exact hfirst hhollow
    · exact hothers e' (Expr.mem_shown.2 ⟨hmem, hhollow⟩)

theorem Filter.takes_layout (tableAlias : Option String) : (f : Filter) → {n : Nat} →
    sizeOf f ≤ n → f.isReadable = true → f.isHollow = false →
      Takes Filter.stops (Filter.read n) (f.layout tableAlias) (f.normal tableAlias)
  | ⟨terms, connective⟩, n, hn, h, hhollow => by
    have hsize : sizeOf terms ≤ n := by
      simp at hn
      omega
    have hlength : terms.length ≤ n :=
      Nat.le_trans (Nat.le_of_lt (length_lt_sizeOf terms)) hsize
    have hreadable := h
    rw [Filter.isReadable] at hreadable
    exact Filter.readWith_layout h hhollow
      (Expr.takes_layouts tableAlias terms hsize hreadable) hlength

/-- A query is read back in its normal form. -/
theorem Select.takes_layout : (q : Select) → {n : Nat} → sizeOf q ≤ n → q.isReadable = true →
    Takes Select.stops (Select.read n) q.layout q.normal
  | ⟨table, schema, tableAlias, distinct, columns, filter, joins, groups, sort, limits,
      recursion⟩, n, hn, h => by
    have hsizes : sizeOf columns ≤ n ∧ sizeOf filter ≤ n ∧ sizeOf joins ≤ n ∧
        sizeOf groups ≤ n := by
      simp at hn
      omega
    obtain ⟨hcolumns, hfilter, hjoins, hgroups⟩ := hsizes
    obtain ⟨-, hreadable, hfilterReadable, -⟩ := (Select.isReadable_iff _).1 h
    have hlength := Nat.lt_of_lt_of_le (length_lt_sizeOf columns) hcolumns
    apply Select.readWith_layout
    exact
      { readable := h
        shown := Expr.takes_layouts tableAlias columns hcolumns hreadable
        star := Expr.takes_star (by omega)
        predicates := Filter.takes_layout tableAlias filter hfilter hfilterReadable
        columns := hlength
        joins := Nat.lt_of_lt_of_le (length_lt_sizeOf joins) hjoins
        groups := Nat.lt_of_lt_of_le (length_lt_sizeOf groups) hgroups }

end

/-- Without raw SQL and recursions, two queries are one statement exactly if they have the same
normal form. -/
theorem Select.sql_eq_iff_normal_eq {p q : Select} (hpRaws : p.raws = []) (hqRaws : q.raws = [])
    (hpRecursions : p.recursions = []) (hqRecursions : q.recursions = []) {f g : Fragment}
    (hp : p.sql .mysql = .ok f) (hq : q.sql .mysql = .ok g) :
    f.text = g.text ∧ f.bindings = g.bindings ↔ p.normal = q.normal := by
  obtain ⟨hpCheck, rfl⟩ := (Query.sql_eq_ok_iff (q := .select p) Dialect.visible_mysql).1 hp
  obtain ⟨hqCheck, rfl⟩ := (Query.sql_eq_ok_iff (q := .select q) Dialect.visible_mysql).1 hq
  have hpReadable := p.isReadable_of_check hpRaws hpRecursions hpCheck
  have hqReadable := q.isReadable_of_check hqRaws hqRecursions hqCheck
  have hpPhrase : Phrase (fun _ => False) p.layout := p.phrase_layout (by simp [hpRaws])
  have hqPhrase : Phrase (fun _ => False) q.layout := q.phrase_layout (by simp [hqRaws])
  have hmarks : p.layout.marks = q.layout.marks ↔ p.normal = q.normal := by
    constructor
    · intro h
      have hpRead := p.takes_layout (Nat.le_add_right (sizeOf p) (sizeOf q)) hpReadable []
        (ends_nil _)
      have hqRead := q.takes_layout (Nat.le_add_left (sizeOf q) (sizeOf p)) hqReadable []
        (ends_nil _)
      rw [h, hqRead] at hpRead
      exact (congrArg Prod.fst (Option.some.inj hpRead)).symm
    · intro h
      rw [← p.marks_normal hpReadable, h, q.marks_normal hqReadable]
  rw [← hmarks, hpPhrase.marks_eq_iff hqPhrase]
  exact Fragment.ext_iff.symm

/-- Tasks without a mark, with what a statement does not show: a group without predicates, an alias
that goes without saying, a list before it is bound. -/
def Select.openTasks : Select :=
  { ofTable "tasks" with
    tableAlias := some "t"
    columns := [.ofColumn (.plain "id"), .aggregate .count ⟨"*", some "t"⟩ none]
    filter :=
      ⟨[.comparison (.plain "done") .is .null,
        .group ⟨[.group .empty, .comparison (.plain "tags") .eq (.list [.string "a", .string "b"])],
          .or⟩,
        .existence { ofTable "notes" with columns := [.star] } true], .and⟩ }

/-- The same tasks in other words. -/
def Select.unmarkedTasks : Select :=
  { ofTable "tasks" with
    tableAlias := some "t"
    columns := [.ofColumn ⟨"id", some "t"⟩, .aggregate .count (.plain "*") none]
    filter :=
      ⟨[.comparison ⟨"done", some "t"⟩ .isNull (.bool true),
        .group ⟨[.comparison ⟨"tags", some "t"⟩ .eq (.string "a,b")], .and⟩,
        .existence (ofTable "notes") true], .and⟩ }

theorem Select.normal_openTasks : openTasks.normal = unmarkedTasks.normal := by
  rfl

theorem Select.openTasks_ne : openTasks ≠ unmarkedTasks := by
  simp [openTasks, unmarkedTasks, Expr.ofColumn, ColumnName.plain]

theorem Select.sql_eq_iff_normal_eq_openTasks :
    openTasks ≠ unmarkedTasks ∧ openTasks.raws = [] ∧ unmarkedTasks.raws = [] ∧
      openTasks.recursions = [] ∧ unmarkedTasks.recursions = [] ∧
      ∃ f g, openTasks.sql .mysql = .ok f ∧ unmarkedTasks.sql .mysql = .ok g ∧
        f.text = g.text ∧ f.bindings = g.bindings := by
  have hp : openTasks.sql .mysql = .ok (openTasks.layout.write .mysql) :=
    (Query.sql_eq_ok_iff (q := .select openTasks) Dialect.visible_mysql).2 ⟨rfl, rfl⟩
  have hq : unmarkedTasks.sql .mysql = .ok (unmarkedTasks.layout.write .mysql) :=
    (Query.sql_eq_ok_iff (q := .select unmarkedTasks) Dialect.visible_mysql).2 ⟨rfl, rfl⟩
  refine ⟨openTasks_ne, rfl, rfl, rfl, rfl, _, _, hp, hq, ?_⟩
  exact (sql_eq_iff_normal_eq rfl rfl rfl rfl hp hq).2 normal_openTasks

end BoundSql
