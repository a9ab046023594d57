import BoundSql.Proofs.Layout.Change
import BoundSql.Proofs.Layout.Schema
import BoundSql.Query

/-!
# Layouts of statements

Every kind of statement is refused or written without a look at the dialect's spelling, and the
dialect only spells out the layout. The caller's raw SQL is collected beside it, as it is the one
part of a layout about which nothing is known.
-/
namespace BoundSql

open Layout

theorem Except.bind_eq_ok {ε α β : Type} {x : Except ε α} {f : α → Except ε β} {b : β} :
    x >>= f = .ok b ↔ ∃ a, x = .ok a ∧ f a = .ok b := by
  cases x with
  | error e => simp [bind, Except.bind]
  | ok a => simp [bind, Except.bind]

/-- A computation goes on if nothing is thrown. -/
theorem Except.guard_eq_ok {ε α : Type} {c : Prop} [Decidable c] {e : ε}
    {f : PUnit → Except ε α} {x : Except ε α} {a : α} :
    (if c then throw e >>= f else x) = .ok a ↔ ¬ c ∧ x = .ok a := by
  by_cases hc : c <;>
    simp [hc, throw, throwThe, MonadExceptOf.throw, bind, Except.bind]

theorem Except.forM_eq_ok {ε α : Type} {f : α → Except ε Unit} {as : List α} :
    as.forM f = .ok () ↔ ∀ a ∈ as, f a = .ok () := by
  induction as with
  | nil => exact iff_of_true rfl (List.forall_mem_nil _)
  | cons a as ih =>
    have hcons : (a :: as).forM f = f a >>= fun _ => as.forM f := rfl
    rw [hcons, Except.bind_eq_ok, List.forall_mem_cons, ← ih]
    exact ⟨fun ⟨⟨⟩, h⟩ => h, fun h => ⟨(), h⟩⟩

/-- Going on with two results of the same image gives the same image, if no other difference
counts. -/
theorem map_bind_congr {α β γ δ : Type} {x y : Except Error α} {g : α → γ} {h : β → δ}
    {f f' : α → Except Error β} (hxy : x.map g = y.map g)
    (hf : ∀ a b, g a = g b → (f a).map h = (f' b).map h) :
    (x >>= f).map h = (y >>= f').map h := by
  cases x <;> cases y <;> simp only [Except.map, Except.ok.injEq, Except.error.injEq,
    reduceCtorEq] at hxy
  · rw [hxy]
    rfl
  · exact hf _ _ hxy

/-- The same, after a common first part. -/
theorem map_bind_right_congr {α β δ : Type} (x : Except Error α) {h : β → δ}
    {f f' : α → Except Error β} (hf : ∀ a, (f a).map h = (f' a).map h) :
    (x >>= f).map h = (x >>= f').map h := by
  cases x with
  | error e => rfl
  | ok a => exact hf a

theorem Except.mapError_bind {ε ε' α β : Type} (g : ε → ε') (x : Except ε α) (f : α → Except ε β) :
    (x >>= f).mapError g = x.mapError g >>= fun a => (f a).mapError g := by
  cases x <;> rfl

theorem Except.forM_mapError {ε ε' α β : Type} {g : ε → ε'} {f : α → Except ε Unit}
    {f' : β → Except ε' Unit} {m : α → β} (h : ∀ a, f' (m a) = (f a).mapError g) (as : List α) :
    (as.map m).forM f' = (as.forM f).mapError g := by
  induction as with
  | nil => rfl
  | cons a as ih =>
    have hcons : (m a :: as.map m).forM f' = f' (m a) >>= fun _ => (as.map m).forM f' := rfl
    have hcons' : (a :: as).forM f = f a >>= fun _ => as.forM f := rfl
    rw [List.map_cons, hcons, hcons', h, ih, Except.mapError_bind]

/-! ## Passed checks -/

/-- Whatever follows, the table must have a name. -/
theorem Target.isSome_of_resolve {α : Type} {table schema tableAlias : Option String}
    {f : Target → Except Error α} {a : α} (h : resolve table schema tableAlias >>= f = .ok a) :
    table.isSome = true := by
  obtain ⟨target, htarget, -⟩ := Except.bind_eq_ok.1 h
  obtain ⟨rfl, -⟩ := resolve_eq_ok_iff.1 htarget
  rfl

theorem Target.eq_of_resolve {table schema tableAlias : Option String} {t : Target}
    (h : resolve table schema tableAlias = .ok t) : t = ⟨table.getD "", schema, tableAlias⟩ := by
  obtain ⟨htable, hschema, halias, -⟩ := resolve_eq_ok_iff.1 h
  rw [htable, hschema, halias, Option.getD_some]

/-- A query that passes its checks names a table, and its parts pass theirs. -/
theorem Select.check_eq_ok {q : Select} (h : q.check = .ok ()) :
    q.table.isSome ∧ Expr.checks q.columns = .ok () ∧ q.filter.check = .ok () := by
  obtain ⟨table, schema, tableAlias, distinct, columns, filter, joins, groups, sort, limits,
    recursion⟩ := q
  rw [check] at h
  obtain ⟨target, htarget, hrest⟩ := Except.bind_eq_ok.1 h
  obtain ⟨-, hchecked⟩ := Except.guard_eq_ok.1 hrest
  have hparts : (Expr.checks columns >>= fun _ => filter.check) = .ok () := by
    cases recursion with
    | none => exact hchecked
    | some k =>
      obtain ⟨⟨⟩, -, hparts⟩ := Except.bind_eq_ok.1 hchecked
      exact hparts
  obtain ⟨rfl, -⟩ := Target.resolve_eq_ok_iff.1 htarget
  obtain ⟨⟨⟩, hcolumns, hfilter⟩ := Except.bind_eq_ok.1 hparts
  exact ⟨rfl, hcolumns, hfilter⟩

theorem Update.check_eq_ok {q : Update} (h : q.check = .ok ()) :
    q.table.isSome ∧ q.filter.check = .ok () := by
  rw [check] at h
  obtain ⟨target, -, hrest⟩ := Except.bind_eq_ok.1 h
  obtain ⟨-, hfilter⟩ := Except.guard_eq_ok.1 hrest
  exact ⟨Target.isSome_of_resolve h, hfilter⟩

theorem Delete.check_eq_ok {q : Delete} (h : q.check = .ok ()) :
    q.table.isSome ∧ (q.truncate = false → q.filter.check = .ok ()) := by
  obtain ⟨table, schema, tableAlias, filter, limits, truncate⟩ := q
  rw [check] at h
  obtain ⟨target, -, hrest⟩ := Except.bind_eq_ok.1 h
  refine ⟨Target.isSome_of_resolve h, ?_⟩
  rintro rfl
  exact hrest

theorem CreateTable.check_eq_ok {q : CreateTable} (h : q.check = .ok ()) :
    q.table.isSome ∧ q.columns ≠ [] ∧ ∀ c ∈ q.columns, c.check = .ok () := by
  rw [check] at h
  obtain ⟨target, -, hrest⟩ := Except.bind_eq_ok.1 h
  obtain ⟨hcolumns, hrest⟩ := Except.guard_eq_ok.1 hrest
  obtain ⟨⟨⟩, hchecks, -⟩ := Except.bind_eq_ok.1 hrest
  exact ⟨Target.isSome_of_resolve h, fun hnone => hcolumns (List.isEmpty_iff.2 hnone),
    Except.forM_eq_ok.1 hchecks⟩

/-! ## Statements of every kind -/

namespace Query

def check : Query → Except Error Unit
  | .select q => q.check
  | .insert q => q.check
  | .update q => q.check
  | .delete q => q.check
  | .createTable q => q.check
  | .createIndex q => q.check

def layout : Query → Layout
  | .select q => q.layout
  | .insert q => q.layout
  | .update q => q.layout
  | .delete q => q.layout
  | .createTable q => q.layout
  | .createIndex q => q.layout

/-- A statement is checked and its layout written; the dialect has no other part in it. -/
theorem sql_eq {d : Dialect} (hd : d.Visible) (q : Query) :
    q.sql d = q.check.map fun _ => write d q.layout := by
  cases q with
  | select q => exact Select.sql_eq hd q
  | insert q => exact Insert.sql_eq hd q
  | update q => exact Update.sql_eq hd q
  | delete q => exact Delete.sql_eq hd q
  | createTable q => exact CreateTable.sql_eq d q
  | createIndex q => exact CreateIndex.sql_eq d q

theorem sql_eq_ok_iff {d : Dialect} (hd : d.Visible) {q : Query} {f : Fragment} :
    q.sql d = .ok f ↔ q.check = .ok () ∧ f = write d q.layout := by
  rw [sql_eq hd]
  cases q.check with
  | error e => simp [Except.map]
  | ok u => simp [Except.map, eq_comm]

end Query

/-! ## Raw SQL -/

namespace Join

def raws : Join → List RawSql
  | .table .. => []
  | .raw _ r => [r]

end Join

namespace Grouping

def raws : Grouping → List RawSql
  | .column _ => []
  | .raw r => [r]

end Grouping

mutual

/-- The raw SQL of an expression, also inside its filter or query. -/
def Expr.raws : Expr → List RawSql
  | .raw r | .rawColumn r => [r]
  | .group filter => filter.raws
  | .existence query _ => query.raws
  | _ => []

def Expr.listRaws : List Expr → List RawSql
  | [] => []
  | e :: rest => e.raws ++ Expr.listRaws rest

def Filter.raws : Filter → List RawSql
  | ⟨terms, _⟩ => Expr.listRaws terms

def Select.raws : Select → List RawSql
  | ⟨_, _, _, _, columns, filter, joins, groups, _, _, _⟩ =>
    Expr.listRaws columns ++ filter.raws ++ joins.flatMap Join.raws ++
      groups.flatMap Grouping.raws

end

namespace Refresh

def raws : Refresh → List RawSql
  | .column _ => []
  | .raw r => [r]

end Refresh

namespace Column

/-- A raw default, which keeps its text alone. -/
def raws (c : Column) : List RawSql :=
  match c.default with
  | some (.raw r) => [⟨r.text, []⟩]
  | _ => []

end Column

namespace Query

/-- The raw SQL of a statement, wherever it stands. -/
def raws : Query → List RawSql
  | .select q => q.raws
  | .insert q => (q.onDuplicate.getD []).flatMap Refresh.raws
  | .update q => q.filter.raws
  | .delete q => q.filter.raws
  | .createTable q => q.columns.flatMap Column.raws
  | .createIndex _ => []

end Query
end BoundSql
