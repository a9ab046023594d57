import BoundSql.Proofs.Layout.Select
import BoundSql.Change.Delete
import BoundSql.Change.Insert
import BoundSql.Change.Update

/-!
# Layouts of changes

Insertions, updates and deletions are laid out like queries: checked first, then written by the
dialect from a layout that does not depend on it.
-/
namespace BoundSql

open Layout

namespace Filter

theorem clause_eq {d : Dialect} (hd : d.Visible) (tableAlias : Option String) (f : Filter) :
    f.clause ⟨d, tableAlias⟩ =
      f.check.map fun _ => write d (headed " WHERE " (f.layout tableAlias)) := by
  rw [clause, sql_eq hd, ← headed_write hd _ (layout_eq_nil tableAlias f)]
  cases f.check <;> rfl

end Filter

namespace Update

def assignmentLayout (assignment : String × Value) : Layout :=
  [.name assignment.1, .words " = ", .value assignment.2]

def check (q : Update) : Except Error Unit := do
  let _ ← Target.resolve q.table q.schema q.tableAlias
  if q.assignments.isEmpty then throw .noAssignments
  q.filter.check

def layout (q : Update) : Layout :=
  let target : Target := ⟨q.table.getD "", q.schema, q.tableAlias⟩
  .words "UPDATE " :: (target.layout ++ .words " SET " ::
    (joined "," (q.assignments.map assignmentLayout) ++
      headed " WHERE " (q.filter.layout q.tableAlias)))

theorem assignmentSql_eq (s : Scope) (assignment : String × Value) :
    assignmentSql s assignment = write s.dialect (assignmentLayout assignment) := by
  obtain ⟨column, value⟩ := assignment
  ext1 <;> simp [assignmentSql, assignmentLayout, Piece.sql, Scope.quote, Scope.placeholder,
    String.append_assoc]

theorem sql_eq {d : Dialect} (hd : d.Visible) (q : Update) :
    q.sql d = q.check.map fun _ => write d q.layout := by
  obtain ⟨table, schema, tableAlias, assignments, filter⟩ := q
  rw [sql, check]
  cases htarget : Target.resolve table schema tableAlias with
  | error e => rfl
  | ok target =>
    obtain ⟨rfl, rfl, rfl, -⟩ := Target.resolve_eq_ok_iff.1 htarget
    have hset : assignments.map (assignmentSql ⟨d, target.tableAlias⟩) =
        (assignments.map assignmentLayout).map (write d) := by
      rw [List.map_map]
      exact List.map_congr_left fun a _ => assignmentSql_eq ⟨d, target.tableAlias⟩ a
    cases hassignments : assignments.isEmpty with
    | true => rfl
    | false =>
      simp only [bind, Except.bind, pure, Except.pure, Target.scope, Filter.clause_eq hd,
        Bool.false_eq_true, if_false]
      cases filter.check with
      | error e => rfl
      | ok u =>
        simp only [Except.map, hset, joined_write hd, layout, Fragment.ofText_append,
          Target.nameAliased_eq, write_cons, write_append, Piece.sql, Fragment.append_assoc,
          Option.getD_some]

end Update

namespace Delete

def check (q : Delete) : Except Error Unit := do
  let _ ← Target.resolve q.table q.schema q.tableAlias
  if q.truncate then return
  q.filter.check

def layout (q : Delete) : Layout :=
  let target : Target := ⟨q.table.getD "", q.schema, q.tableAlias⟩
  if q.truncate then .words "TRUNCATE TABLE " :: target.nameLayout
  else .words "DELETE FROM " :: (target.layout ++
    headed " WHERE " (q.filter.layout q.tableAlias) ++ q.limits.limitLayout)

theorem sql_eq {d : Dialect} (hd : d.Visible) (q : Delete) :
    q.sql d = q.check.map fun _ => write d q.layout := by
  obtain ⟨table, schema, tableAlias, filter, limits, truncate⟩ := q
  rw [sql, check]
  cases htarget : Target.resolve table schema tableAlias with
  | error e => rfl
  | ok target =>
    obtain ⟨rfl, rfl, rfl, -⟩ := Target.resolve_eq_ok_iff.1 htarget
    cases truncate with
    | true =>
      simp only [bind, Except.bind, pure, Except.pure, Except.map, layout, if_true,
        Fragment.ofText_append, Target.name_eq, write_cons, Piece.sql]
      rfl
    | false =>
      simp only [bind, Except.bind, pure, Except.pure, Target.scope, Filter.clause_eq hd,
        Limits.limitClause_eq, Bool.false_eq_true, if_false]
      cases filter.check with
      | error e => rfl
      | ok u =>
        simp only [Except.map, layout, Fragment.ofText_append, Target.nameAliased_eq, write_cons,
          write_append, Piece.sql, Fragment.append_assoc, Option.getD_some, Bool.false_eq_true,
          if_false]

end Delete

namespace Cell

def layout : Cell → Layout
  | .default => [.words "DEFAULT"]
  | .value v => [.value v]

theorem sql_eq (s : Scope) (c : Cell) : c.sql s = write s.dialect c.layout := by
  cases c <;> ext1 <;> simp [sql, layout, Piece.sql, Scope.placeholder]

end Cell

namespace Insert

/-- The cells of a row between parentheses. -/
def tupleLayout (columns : List String) (r : Row) : Layout :=
  .words "(" :: (joined "," (columns.map fun c => (r.cell c).layout) ++ [.words ")"])

def refreshCheck (columns : List String) : Refresh → Except Error Unit
  | .column c => if columns.contains c then .ok () else .error (.notInserted c)
  | .raw _ => .ok ()

def refreshLayout (first : Row) : Refresh → Layout
  | .column c => .name c :: .words " = " :: (first.cell c).layout
  | .raw r => [.raw r]

def check (q : Insert) : Except Error Unit := do
  let _ ← Target.resolve q.table q.schema none
  if q.rows.isEmpty then throw .noRows
  if q.columnNames.isEmpty then throw .noInsertedColumns
  (q.onDuplicate.getD []).forM (refreshCheck q.columnNames)

/-- Everything in front of the rows. -/
def openingLayout (t : Target) (ignore : Bool) (columns : List String) : Layout :=
  .words "INSERT " :: ((if ignore then [.words "IGNORE "] else []) ++ .words "INTO " ::
    (t.nameLayout ++ .words " (" ::
      (List.intercalate [.words ","] (columns.map fun c => [.name c]) ++ [.words ") VALUES "])))

def layout (q : Insert) : Layout :=
  openingLayout ⟨q.table.getD "", q.schema, none⟩ q.ignore q.columnNames ++
    joined "," (q.rows.map (tupleLayout q.columnNames)) ++
    headed " ON DUPLICATE KEY UPDATE "
      (joined "," ((q.onDuplicate.getD []).map (refreshLayout (q.rows.headD .empty))))

theorem opening_eq (s : Scope) (t : Target) (ignore : Bool) (columns : List String) :
    Fragment.ofText ("INSERT " ++ (if ignore then "IGNORE " else "") ++ "INTO " ++
      t.name s.dialect ++ " (" ++ String.intercalate "," (columns.map s.quote) ++ ") VALUES ") =
    write s.dialect (openingLayout t ignore columns) := by
  have hnames := write_intercalate s.dialect "," (columns.map fun c => [.name c])
  rw [openingLayout, write_cons, write_append, write_cons, write_append, ← Target.name_eq,
    write_cons, write_append, hnames]
  cases ignore <;> apply Fragment.ext_chars <;>
    simp [Piece.sql, Function.comp_def, Scope.quote, List.flatMap_map]

section
variable {d : Dialect} (hd : d.Visible) (tableAlias : Option String) (columns : List String)
include hd

theorem tupleSql_eq (r : Row) :
    tupleSql ⟨d, tableAlias⟩ columns r = write d (tupleLayout columns r) := by
  have hcells : (columns.map fun c => (r.cell c).sql ⟨d, tableAlias⟩) =
      (columns.map fun c => (r.cell c).layout).map (write d) := by
    rw [List.map_map]
    exact List.map_congr_left fun c _ => Cell.sql_eq ⟨d, tableAlias⟩ (r.cell c)
  rw [tupleSql, hcells, joined_write hd]
  ext1 <;> simp [tupleLayout, Piece.sql, String.append_assoc]

omit hd in
theorem refreshSql_eq (first : Row) (item : Refresh) :
    refreshSql ⟨d, tableAlias⟩ columns first item =
      (refreshCheck columns item).map fun _ => write d (refreshLayout first item) := by
  cases item with
  | raw r =>
    simp [refreshSql, refreshCheck, refreshLayout, Except.map, Piece.sql, Fragment.append_empty]
  | column c =>
    rw [refreshSql, refreshCheck]
    split
    · have hwritten : Fragment.ofText (Scope.quote ⟨d, tableAlias⟩ c ++ " = ") ++
          (first.cell c).sql ⟨d, tableAlias⟩ = write d (refreshLayout first (.column c)) := by
        rw [Cell.sql_eq]
        ext1 <;> simp [refreshLayout, Piece.sql, Scope.quote, String.append_assoc]
      rw [hwritten]
      rfl
    · rfl

omit hd in
theorem refreshSqls_eq (first : Row) (items : List Refresh) :
    items.mapM (refreshSql ⟨d, tableAlias⟩ columns first) =
      (items.forM (refreshCheck columns)).map fun _ =>
        (items.map (refreshLayout first)).map (write d) := by
  induction items with
  | nil => rfl
  | cons item rest ih =>
    have hforM : (item :: rest).forM (refreshCheck columns) =
        refreshCheck columns item >>= fun _ => rest.forM (refreshCheck columns) := rfl
    rw [List.mapM_cons, ih, refreshSql_eq, hforM]
    cases refreshCheck columns item with
    | error e => rfl
    | ok u => cases rest.forM (refreshCheck columns) <;> rfl

theorem refreshClause_eq (first : Row) (items : List Refresh) :
    refreshClause ⟨d, tableAlias⟩ columns first items =
      (items.forM (refreshCheck columns)).map fun _ =>
        write d (headed " ON DUPLICATE KEY UPDATE "
          (joined "," (items.map (refreshLayout first)))) := by
  rw [refreshClause, refreshSqls_eq, ← headed_write hd _ joined_eq_nil, ← joined_write hd]
  cases items.forM (refreshCheck columns) <;> rfl

omit tableAlias columns in
theorem sql_eq (q : Insert) : q.sql d = q.check.map fun _ => write d q.layout := by
  obtain ⟨table, schema, rows, ignore, onDuplicate⟩ := q
  rw [sql, check]
  cases htarget : Target.resolve table schema none with
  | error e => rfl
  | ok target =>
    obtain ⟨rfl, rfl, -⟩ := Target.resolve_eq_ok_iff.1 htarget
    cases rows with
    | nil => rfl
    | cons first rest =>
      have htuples : ∀ columns, (first :: rest).map (tupleSql ⟨d, target.tableAlias⟩ columns) =
          ((first :: rest).map (tupleLayout columns)).map (write d) := by
        intro columns
        rw [List.map_map]
        exact List.map_congr_left fun r _ => tupleSql_eq hd target.tableAlias columns r
      simp only [bind, Except.bind, pure, Except.pure, Target.scope, refreshClause_eq hd, htuples,
        joined_write hd, List.isEmpty_cons, Bool.false_eq_true, if_false,
        opening_eq ⟨d, target.tableAlias⟩]
      split
      · rfl
      · cases (onDuplicate.getD []).forM (refreshCheck _) with
        | error e => rfl
        | ok u =>
          simp only [Except.map, layout, write_append, Option.getD_some, List.headD_cons]
          rfl

end
end Insert
end BoundSql
