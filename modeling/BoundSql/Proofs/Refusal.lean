import BoundSql.Query

/-!
# Refused statements

Which statements have no SQL, said of the statements alone: neither the dialect nor the order of
the checks matters. A refusal may lie arbitrarily deep, as a group is refused with any of its
members and a subquery like a query. The second arm of a recursive query is no cause of its own,
since it renders a select list that the first arm has rendered before.
-/
namespace BoundSql

open Text

/-! ## What is refused -/

/-- The table is missing or blank, or another name that is given for it is blank. -/
def Target.IsRefused (table schema tableAlias : Option String) : Prop :=
  (∀ t ∈ table, isBlank t = true) ∨ (∃ s ∈ schema, isBlank s = true) ∨
    ∃ a ∈ tableAlias, isBlank a = true

mutual

/-- An expression without SQL: `IS` with something else than a boolean or null, a group with such
a member, or a refused subquery. -/
inductive Expr.IsBad : Expr → Prop
  | literal {c : ColumnName} {op : Operator} {v : Value} : op = .is ∨ op = .isNot →
      (∀ b, v ≠ .bool b) → v ≠ .null → Expr.IsBad (.comparison c op v)
  | group {f : Filter} {e : Expr} : e ∈ f.terms → e.IsBad → Expr.IsBad (.group f)
  | existence {q : Select} {negated : Bool} : q.IsRefused → Expr.IsBad (.existence q negated)

/-- A query without SQL. -/
inductive Select.IsRefused : Select → Prop
  | target {q : Select} : Target.IsRefused q.table q.schema q.tableAlias → q.IsRefused
  | distinct {q : Select} : q.distinct = true →
      q.columns = [] ∨ (∃ c label, .column c label ∈ q.columns ∧ c.name = "*") → q.IsRefused
  | recursion {q : Select} {r : Recursion} : q.recursion = some r →
      isBlank r.recursiveKey = true ∨ isBlank r.anchorKey = true → q.IsRefused
  | column {q : Select} {e : Expr} : e ∈ q.columns → e.IsBad → q.IsRefused
  | filter {q : Select} {e : Expr} : e ∈ q.filter.terms → e.IsBad → q.IsRefused

end

/-- A filter with a bad predicate, at any depth. -/
def Filter.IsBad (f : Filter) : Prop := ∃ e ∈ f.terms, e.IsBad

def Update.IsRefused (q : Update) : Prop :=
  Target.IsRefused q.table q.schema q.tableAlias ∨ q.assignments = [] ∨ q.filter.IsBad

/-- The filter counts only if it is rendered. -/
def Delete.IsRefused (q : Delete) : Prop :=
  Target.IsRefused q.table q.schema q.tableAlias ∨ q.truncate = false ∧ q.filter.IsBad

/-- Some row gives the column a value or its default. -/
def Insert.Names (q : Insert) (column : String) : Prop :=
  ∃ row ∈ q.rows, ∃ cell, (column, cell) ∈ row.fields

def Insert.IsRefused (q : Insert) : Prop :=
  Target.IsRefused q.table q.schema none ∨ q.rows = [] ∨ (∀ column, ¬ q.Names column) ∨
    ∃ items ∈ q.onDuplicate, ∃ column, .column column ∈ items ∧ ¬ q.Names column

def Column.IsBad (c : Column) : Prop :=
  isBlank c.name = true ∨ (c.type = .set ∨ c.type = .enumeration) ∧ c.members = []

def ForeignKey.IsBad (k : ForeignKey) : Prop :=
  isBlank k.column = true ∨ isBlank k.referencedTable = true ∨ isBlank k.referencedColumn = true

def CreateTable.IsRefused (q : CreateTable) : Prop :=
  Target.IsRefused q.table q.schema none ∨ q.columns = [] ∨ (∃ c ∈ q.columns, c.IsBad) ∨
    ∃ k ∈ q.foreignKeys, k.IsBad

def CreateIndex.IsRefused (q : CreateIndex) : Prop :=
  Target.IsRefused q.table q.schema none ∨ isBlank q.name = true ∨ q.columns = []

/-- A statement without SQL. -/
def Query.IsRefused : Query → Prop
  | .select q => q.IsRefused
  | .insert q => q.IsRefused
  | .update q => q.IsRefused
  | .delete q => q.IsRefused
  | .createTable q => q.IsRefused
  | .createIndex q => q.IsRefused

/-! ## Failing computations -/

/-- The computation ends with an error. -/
def Fails {α : Type} (x : Except Error α) : Prop := ∃ e, x = .error e

section
variable {α β : Type} {x : Except Error α}

@[simp] theorem fails_error (e : Error) : Fails (.error e : Except Error α) := ⟨e, rfl⟩

@[simp] theorem not_fails_ok (a : α) : ¬ Fails (.ok a) := by
  rintro ⟨e, h⟩
  cases h

/-- A chain fails in its first part or in its second, if that does not depend on the result of the
first. -/
theorem fails_bind {f : α → Except Error β} {p : Prop} (h : ∀ a, Fails (f a) ↔ p) :
    Fails (x >>= f) ↔ Fails x ∨ p := by
  cases x with
  | error e => simp [bind, Except.bind]
  | ok a => simpa [bind, Except.bind] using h a

/-- What only goes on with the result of a computation fails with it. -/
theorem fails_map (f : α → β) : Fails (do return f (← x)) ↔ Fails x := by
  have hf : ∀ a, Fails (pure (f a) : Except Error β) ↔ False :=
    fun a => iff_false_intro (not_fails_ok _)
  rw [fails_bind hf, or_false]

theorem fails_forM {f : β → Except Error Unit} (bs : List β) :
    Fails (bs.forM f) ↔ ∃ b ∈ bs, Fails (f b) := by
  induction bs with
  | nil => simp [List.forM, pure, Except.pure]
  | cons b rest ih =>
    have hcons : (b :: rest).forM f = f b >>= fun _ => rest.forM f := rfl
    rw [hcons, fails_bind fun _ => ih]
    simp

theorem fails_mapM {f : β → Except Error α} (bs : List β) :
    Fails (bs.mapM f) ↔ ∃ b ∈ bs, Fails (f b) := by
  induction bs with
  | nil => simp [pure, Except.pure]
  | cons b rest ih =>
    have hrest : ∀ a, Fails (do return a :: (← rest.mapM f)) ↔ ∃ b ∈ rest, Fails (f b) :=
      fun a => (fails_map (a :: ·)).trans ih
    rw [List.mapM_cons, fails_bind hrest]
    simp

/-- A check that comes before the rest. -/
theorem fails_ite {c : Prop} [Decidable c] (e : Error) :
    Fails (if c then .error e else x) ↔ c ∨ Fails x := by
  by_cases hc : c <;> simp [hc]

theorem fails_throw {c : Prop} [Decidable c] (e : Error) (f : PUnit → Except Error α) :
    Fails (if c then throw e >>= f else x) ↔ c ∨ Fails x :=
  fails_ite e

end

/-! ## Queries -/

theorem Target.fails_resolve (table schema tableAlias : Option String) :
    Fails (resolve table schema tableAlias) ↔ IsRefused table schema tableAlias := by
  cases table with
  | none => simp [resolve, IsRefused]
  | some table =>
    simp only [resolve, fails_ite, not_fails_ok, or_false]
    cases schema <;> cases tableAlias <;> simp [IsRefused]

theorem Recursion.fails_check (r : Recursion) :
    Fails r.check ↔ isBlank r.recursiveKey = true ∨ isBlank r.anchorKey = true := by
  simp [check, fails_ite]

namespace Expr

theorem isWildcard_iff (e : Expr) :
    e.isWildcard = true ↔ ∃ c label, e = .column c label ∧ c.name = "*" := by
  cases e <;> simp [isWildcard, ColumnName.isWildcard]

theorem nameColumns_eq_false_iff (columns : List Expr) :
    nameColumns columns = false ↔
      columns = [] ∨ ∃ c label, .column c label ∈ columns ∧ c.name = "*" := by
  have hany : columns.any isWildcard = true ↔
      ∃ c label, .column c label ∈ columns ∧ c.name = "*" := by
    simp only [List.any_eq_true, isWildcard_iff]
    constructor
    · rintro ⟨_, he, c, label, rfl, hc⟩
      exact ⟨c, label, he, hc⟩
    · rintro ⟨c, label, he, hc⟩
      exact ⟨_, he, c, label, rfl, hc⟩
  rw [nameColumns, Bool.and_eq_false_iff, Bool.not_eq_false', Bool.not_eq_false', hany,
    List.isEmpty_iff]

theorem literal?_eq_none_iff (v : Value) :
    literal? v = none ↔ (∀ b, v ≠ .bool b) ∧ v ≠ .null := by
  cases v with
  | bool b => cases b <;> simp [literal?]
  | _ => simp [literal?]

theorem fails_comparisonSql (s : Scope) (c : ColumnName) (op : Operator) (v : Value) :
    Fails (comparisonSql s c op v) ↔ IsBad (.comparison c op v) := by
  have hbad : IsBad (.comparison c op v) ↔ (op = .is ∨ op = .isNot) ∧ literal? v = none := by
    rw [literal?_eq_none_iff]
    constructor
    · rintro ⟨⟩
      exact ⟨‹_›, ‹_›, ‹_›⟩
    · rintro ⟨hop, hbool, hnull⟩
      exact .literal hop hbool hnull
  rw [hbad]
  cases op <;> cases h : literal? v <;> simp [comparisonSql, h]

end Expr

theorem Select.isRefused_iff (q : Select) :
    q.IsRefused ↔ Target.IsRefused q.table q.schema q.tableAlias ∨
      (q.distinct && !Expr.nameColumns q.columns) = true ∨
      (∃ r, q.recursion = some r ∧ Fails r.check) ∨ (∃ e ∈ q.columns, e.IsBad) ∨
      q.filter.IsBad := by
  simp only [Bool.and_eq_true, Bool.not_eq_true', Expr.nameColumns_eq_false_iff,
    Recursion.fails_check]
  constructor
  · intro h
    cases h with
    | target h => exact .inl h
    | distinct h hcolumns => exact .inr (.inl ⟨h, hcolumns⟩)
    | recursion h hblank => exact .inr (.inr (.inl ⟨_, h, hblank⟩))
    | column h he => exact .inr (.inr (.inr (.inl ⟨_, h, he⟩)))
    | filter h he => exact .inr (.inr (.inr (.inr ⟨_, h, he⟩)))
  · rintro (h | ⟨h, hcolumns⟩ | ⟨r, h, hblank⟩ | ⟨e, h, he⟩ | ⟨e, h, he⟩)
    · exact .target h
    · exact .distinct h hcolumns
    · exact .recursion h hblank
    · exact .column h he
    · exact .filter h he

mutual

theorem Expr.fails_sql (s : Scope) : (e : Expr) → (Fails (e.sql s) ↔ e.IsBad)
  | .comparison c op v => by
    rw [Expr.sql]
    exact Expr.fails_comparisonSql s c op v
  | .group f => by
    rw [Expr.sql, fails_map, Filter.fails_sql s f]
    constructor
    · rintro ⟨e, he, hbad⟩
      exact .group he hbad
    · rintro ⟨⟩
      exact ⟨_, ‹_›, ‹_›⟩
  | .existence q negated => by
    rw [Expr.sql, fails_map, Select.fails_sql s.dialect q]
    constructor
    · exact .existence
    · rintro ⟨⟩
      assumption
  | .raw _ | .column _ _ | .aggregate _ _ _ | .rawColumn _ | .datePart _ _ _ | .between _ _ _ _
  | .oneOf _ _ _ => by
    rw [Expr.sql]
    exact iff_of_false (not_fails_ok _) (by rintro ⟨⟩)

theorem Expr.fails_sqls (s : Scope) :
    (es : List Expr) → (Fails (Expr.sqls s es) ↔ ∃ e ∈ es, e.IsBad)
  | [] => by
    rw [Expr.sqls]
    simp
  | e :: rest => by
    have hrest : ∀ f, Fails (do return f :: (← Expr.sqls s rest)) ↔ ∃ e ∈ rest, e.IsBad :=
      fun f => (fails_map (f :: ·)).trans (Expr.fails_sqls s rest)
    rw [Expr.sqls, fails_bind hrest, Expr.fails_sql s e]
    simp

theorem Filter.fails_sql (s : Scope) : (f : Filter) → (Fails (f.sql s) ↔ f.IsBad)
  | ⟨terms, connective⟩ => by
    rw [Filter.sql, fails_map, Expr.fails_sqls s terms]
    rfl

theorem Select.fails_sql (d : Dialect) : (q : Select) → (Fails (q.sql d) ↔ q.IsRefused)
  | ⟨table, schema, tableAlias, distinct, columns, filter, joins, groups, sort, limits,
      recursion⟩ => by
    have hcolumns := fun s => Expr.fails_sqls s columns
    have hfilter := fun s => Filter.fails_sql s filter
    rw [Select.isRefused_iff, Select.sql, fails_bind, Target.fails_resolve]
    intro target
    dsimp only
    rw [fails_throw]
    cases recursion with
    | none =>
      dsimp only
      rw [fails_bind fun _ => (fails_map _).trans (hfilter _), hcolumns]
      simp
    | some r =>
      -- The select list is rendered once more, which fails exactly when the first time did.
      dsimp only
      rw [fails_bind fun _ => fails_bind fun _ => fails_bind fun _ =>
          (fails_map _).trans (hcolumns _),
        hcolumns, hfilter, or_comm (a := filter.IsBad), or_self_left]
      simp

end

/-! ## Other statements -/

theorem Filter.fails_clause (s : Scope) (f : Filter) : Fails (f.clause s) ↔ f.IsBad := by
  rw [clause, fails_map, fails_sql]

theorem Update.fails_sql (d : Dialect) (q : Update) : Fails (q.sql d) ↔ q.IsRefused := by
  rw [sql, fails_bind, Target.fails_resolve, IsRefused]
  intro target
  dsimp only
  rw [fails_throw, fails_map, Filter.fails_clause, List.isEmpty_iff]

theorem Delete.fails_sql (d : Dialect) (q : Delete) : Fails (q.sql d) ↔ q.IsRefused := by
  rw [sql, fails_bind, Target.fails_resolve, IsRefused]
  intro target
  cases q.truncate with
  | true => simp [pure, Except.pure]
  | false =>
    simp only [Bool.false_eq_true, if_false]
    rw [fails_map, Filter.fails_clause]
    simp

namespace Insert

theorem mem_columnNames {q : Insert} {column : String} :
    column ∈ q.columnNames ↔ q.Names column := by
  simp [columnNames, Names, List.mem_eraseDups]

theorem columnNames_isEmpty_iff (q : Insert) :
    q.columnNames.isEmpty = true ↔ ∀ column, ¬ q.Names column := by
  simp only [List.isEmpty_iff, List.eq_nil_iff_forall_not_mem, mem_columnNames]

theorem fails_refreshSql (s : Scope) (q : Insert) (first : Row) (item : Refresh) :
    Fails (refreshSql s q.columnNames first item) ↔
      ∃ column, item = .column column ∧ ¬ q.Names column := by
  cases item with
  | column c =>
    rw [refreshSql]
    by_cases hc : q.Names c <;> simp [mem_columnNames, hc]
  | raw r => simp [refreshSql]

theorem fails_refreshClause (s : Scope) (q : Insert) (first : Row) (items : List Refresh) :
    Fails (refreshClause s q.columnNames first items) ↔
      ∃ column, .column column ∈ items ∧ ¬ q.Names column := by
  rw [refreshClause, fails_map, fails_mapM]
  simp only [fails_refreshSql]
  constructor
  · rintro ⟨_, hitem, column, rfl, hcolumn⟩
    exact ⟨column, hitem, hcolumn⟩
  · rintro ⟨column, hitem, hcolumn⟩
    exact ⟨_, hitem, column, rfl, hcolumn⟩

theorem fails_sql (d : Dialect) (q : Insert) : Fails (q.sql d) ↔ q.IsRefused := by
  have hitems : (∃ column, Refresh.column column ∈ q.onDuplicate.getD [] ∧ ¬ q.Names column) ↔
      ∃ items ∈ q.onDuplicate, ∃ column, .column column ∈ items ∧ ¬ q.Names column := by
    cases q.onDuplicate <;> simp
  rw [sql, fails_bind, Target.fails_resolve, IsRefused]
  intro target
  cases hrows : q.rows with
  | nil => simp [throw, throwThe, MonadExceptOf.throw]
  | cons first rest =>
    dsimp only
    rw [fails_throw, fails_map, fails_refreshClause, columnNames_isEmpty_iff, hitems]
    simp

end Insert

theorem Column.fails_check (c : Column) : Fails c.check ↔ c.IsBad := by
  have hmembers : c.type.hasMembers = true ↔ c.type = .set ∨ c.type = .enumeration := by
    cases c.type <;> simp [ColumnType.hasMembers]
  simp [check, fails_ite, IsBad, hmembers]

theorem ForeignKey.fails_check (k : ForeignKey) : Fails k.check ↔ k.IsBad := by
  simp [check, fails_ite, IsBad, or_assoc]

theorem CreateTable.fails_sql (d : Dialect) (q : CreateTable) :
    Fails (q.sql d) ↔ q.IsRefused := by
  rw [sql, fails_bind, Target.fails_resolve, IsRefused]
  intro target
  dsimp only
  rw [fails_throw, fails_bind fun _ => fails_map _, fails_forM, fails_forM, List.isEmpty_iff]
  simp only [Column.fails_check, ForeignKey.fails_check]

theorem CreateIndex.fails_sql (d : Dialect) (q : CreateIndex) :
    Fails (q.sql d) ↔ q.IsRefused := by
  rw [sql, fails_bind, Target.fails_resolve, IsRefused]
  intro target
  dsimp only
  rw [fails_throw, fails_throw, List.isEmpty_iff]
  simp [pure, Except.pure]

/-- A dialect refuses exactly the statements that are refused on their own account: all dialects
refuse the same ones. -/
theorem Query.sql_eq_error_iff (d : Dialect) (q : Query) :
    (∃ e, q.sql d = .error e) ↔ q.IsRefused := by
  cases q with
  | select q => exact Select.fails_sql d q
  | insert q => exact Insert.fails_sql d q
  | update q => exact Update.fails_sql d q
  | delete q => exact Delete.fails_sql d q
  | createTable q => exact CreateTable.fails_sql d q
  | createIndex q => exact CreateIndex.fails_sql d q

end BoundSql
