import BoundSql.Proofs.Overwriting

/-!
# Assigned columns

An update is built by steps, some of which assign a value to a column. The assignments are a map
that keeps its order: a column stands where it was first assigned, with the value that it was
assigned last, as in a row whose cells are overwritten. These steps touch nothing else, so the
update is the one that the other steps build, with the assignments added to it.
-/
namespace BoundSql

open Fragment

namespace Update

/-! ## Steps -/

/-- The column that a step assigns, and its value. -/
def Edit.assignment? : Edit → Option (String × Value)
  | .set column value => some (column, value)
  | _ => none

/-- The assignments that steps make, one after the other. -/
def assigned (edits : List Edit) : List (String × Value) := edits.filterMap Edit.assignment?

/-- The steps that assign nothing. -/
def others (edits : List Edit) : List Edit := edits.filter fun e => e.assignment?.isNone

/-- The values that a column is assigned. -/
def given (column : String) (calls : List (String × Value)) : List Value :=
  (calls.filter fun call => call.1 == column).map Prod.snd

/-- Assignments as one list in which each column has its first place and its last value. -/
structure Records (calls fields : List (String × Value)) : Prop where
  mem_iff : ∀ c, c ∈ fields.map Prod.fst ↔ c ∈ calls.map Prod.fst
  order : (fields.map Prod.fst).Pairwise fun b c =>
    (calls.map Prod.fst).idxOf b < (calls.map Prod.fst).idxOf c
  last : ∀ field ∈ fields, (given field.1 calls).getLast? = some field.2

namespace Records

variable {calls fields : List (String × Value)} (h : Records calls fields)
include h

theorem nodup : (fields.map Prod.fst).Nodup := List.nodup_of_pairwise_idxOf h.order

theorem eq_nil_iff : fields = [] ↔ calls = [] := by
  have hnames : fields.map Prod.fst = [] ↔ calls.map Prod.fst = [] := by
    simp only [List.eq_nil_iff_forall_not_mem, h.mem_iff]
  rwa [List.map_eq_nil_iff, List.map_eq_nil_iff] at hnames

end Records

section
variable (q : Update) (assignments : List (String × Value))

/-- A step that assigns changes the assignments and nothing else. -/
theorem edit_of_assignment {e : Edit} {a : String × Value} (h : e.assignment? = some a) :
    ({ q with assignments := assignments } : Update).edit e =
      { q with assignments := assign a.1 a.2 assignments } := by
  cases e with
  | set column value =>
    obtain rfl := Option.some.inj h
    rfl
  | schema name | tableAlias name | filter e => cases h

/-- Any other step leaves the assignments alone and does not look at them. -/
theorem edit_of_no_assignment {e : Edit} (h : e.assignment? = none) :
    ({ q with assignments := assignments } : Update).edit e =
      { q.edit e with assignments := assignments } := by
  cases e with
  | set column value => cases h
  | schema name | tableAlias name | filter e => rfl

end

/-- A run of steps is the run of those that assign nothing, with all assignments added. -/
theorem build_eq (q : Update) (edits : List Edit) :
    q.build edits =
      { q.build (others edits) with
        assignments := (assigned edits).foldl (fun as a => assign a.1 a.2 as) q.assignments } := by
  induction edits using List.reverseRecOn with
  | nil => rfl
  | append_singleton edits e ih =>
    have hstep : q.build (edits ++ [e]) = (q.build edits).edit e := List.foldl_concat ..
    rw [hstep, ih]
    cases he : e.assignment? with
    | some a =>
      have hassigned : assigned (edits ++ [e]) = assigned edits ++ [a] := by simp [assigned, he]
      have hothers : others (edits ++ [e]) = others edits := by simp [others, he]
      rw [edit_of_assignment _ _ he, hassigned, hothers, List.foldl_concat]
    | none =>
      have hassigned : assigned (edits ++ [e]) = assigned edits := by simp [assigned, he]
      have hothers : others (edits ++ [e]) = others edits ++ [e] := by simp [others, he]
      have hbuild : q.build (others edits ++ [e]) = (q.build (others edits)).edit e :=
        List.foldl_concat ..
      rw [edit_of_no_assignment _ _ he, hassigned, hothers, hbuild]

theorem assigned_others (edits : List Edit) : assigned (others edits) = [] := by
  simp [assigned, others, List.filterMap_eq_nil_iff]

theorem table_build (q : Update) (edits : List Edit) : (q.build edits).table = q.table := by
  induction edits generalizing q with
  | nil => rfl
  | cons e rest ih =>
    have hedit : (q.edit e).table = q.table := by cases e <;> rfl
    exact (ih (q.edit e)).trans hedit

/-! ## Assignments as cells -/

/-- Assigned values as the fields of a row. -/
def cells (assignments : List (String × Value)) : List (String × Cell) :=
  assignments.map fun a => (a.1, .value a.2)

theorem names_cells (assignments : List (String × Value)) :
    (cells assignments).map Prod.fst = assignments.map Prod.fst := by
  simp [cells, Function.comp_def]

theorem given_cells (column : String) (calls : List (String × Value)) :
    Row.given column (cells calls) = (given column calls).map .value := by
  simp [Row.given, given, cells, List.filter_map, Function.comp_def]

/-- To assign is to overwrite. -/
theorem cells_assign (column : String) (value : Value) (assignments : List (String × Value)) :
    cells (assign column value assignments) =
      Row.overwrite column (.value value) (cells assignments) := by
  induction assignments with
  | nil => rfl
  | cons a rest ih =>
    obtain ⟨c, v⟩ := a
    by_cases h : c = column
    · simp [assign, cells, Row.overwrite, h]
    · have hrest : cells ((c, v) :: rest) = (c, .value v) :: cells rest := rfl
      rw [assign, if_neg h, hrest, Row.overwrite, if_neg h, ← ih]
      rfl

theorem cells_foldl (calls : List (String × Value)) :
    cells (calls.foldl (fun as a => assign a.1 a.2 as) []) =
      (Row.overwritten (cells calls)).fields := by
  induction calls using List.reverseRecOn with
  | nil => rfl
  | append_singleton calls a ih =>
    have hcells : cells (calls ++ [a]) = cells calls ++ [(a.1, .value a.2)] := List.map_append
    rw [List.foldl_concat, cells_assign, ih, hcells, Row.overwritten_concat]

/-- Assignments made one after the other are recorded. -/
theorem records_foldl (calls : List (String × Value)) :
    Records calls (calls.foldl (fun as a => assign a.1 a.2 as) []) := by
  have hfields := cells_foldl calls
  have hnames : (calls.foldl (fun as a => assign a.1 a.2 as) []).map Prod.fst =
      (calls.map Prod.fst).eraseDups := by
    have hcolumns := Row.columnNames_overwritten (cells calls)
    rwa [Row.columnNames, Row.columnNames, Row.fields_build, ← hfields, names_cells,
      names_cells] at hcolumns
  generalize calls.foldl (fun as a => assign a.1 a.2 as) [] = fields at hfields hnames
  have horder := List.pairwise_idxOf_eraseDups (calls.map Prod.fst)
  rw [← hnames] at horder
  refine ⟨fun c => by rw [hnames, List.mem_eraseDups], horder, fun field hfield => ?_⟩
  have hnodup : (Row.overwritten (cells calls)).columnNames.Nodup := by
    rw [Row.columnNames, ← hfields, names_cells]
    exact List.nodup_of_pairwise_idxOf horder
  have hmem : (field.1, Cell.value field.2) ∈ (Row.overwritten (cells calls)).fields := by
    rw [← hfields]
    exact List.mem_map_of_mem hfield
  -- What stands in the field is what the overwritten row has for the column.
  have hvalue := Row.value?_of_mem hnodup hmem
  rw [← Row.value?_cell, Row.cell_overwritten, given_cells, List.getLast?_map] at hvalue
  cases hlast : (given field.1 calls).getLast? with
  | none => simp [hlast, Cell.value?] at hvalue
  | some v => simpa [hlast, Cell.value?] using hvalue

/-! ## The SQL of a built update -/

section
variable {d : Dialect} {q : Update}

/-- No assignment is left out of the list. -/
theorem joined_assignments (s : Scope) (assignments : List (String × Value)) :
    joined "," (assignments.map (assignmentSql s)) =
      ⟨String.intercalate ","
          ((assignments.map Prod.fst).map fun c => s.quote c ++ " = " ++ s.placeholder),
        assignments.map fun a => a.2.binding⟩ := by
  have htext : ∀ f ∈ assignments.map (assignmentSql s), f.isEmpty = false := by
    intro f hf
    obtain ⟨a, -, rfl⟩ := List.mem_map.1 hf
    simp [assignmentSql, isEmpty]
  rw [joined_eq "," htext]
  ext1
  · simp [assignmentSql, Function.comp_def]
  · exact (List.flatMap_map ..).trans List.map_eq_flatMap.symm

/-- An update is written if it assigns anything, names its table and has a filter that is written:
the assignments stand in front of the filter, and so do their values. -/
theorem sql_eq_ok_iff {f : Fragment} :
    q.sql d = .ok f ↔
      q.assignments ≠ [] ∧ ∃ target filter,
        Target.resolve q.table q.schema q.tableAlias = .ok target ∧
        q.filter.clause ⟨d, q.tableAlias⟩ = .ok filter ∧
        f = ⟨"UPDATE " ++ target.nameAliased d ++ " SET " ++ String.intercalate ","
              ((q.assignments.map Prod.fst).map fun c => d.quote c ++ " = " ++ d.placeholder) ++
              filter.text,
            (q.assignments.map fun a => a.2.binding) ++ filter.bindings⟩ := by
  constructor
  · intro h
    obtain ⟨target, htarget, hrest⟩ := Except.bind_eq_ok.1 h
    obtain ⟨hassignments, hrest⟩ := Except.guard_eq_ok.1 hrest
    obtain ⟨filter, hfilter, hf⟩ := Except.bind_eq_ok.1 hrest
    obtain ⟨-, -, halias, -⟩ := Target.resolve_eq_ok_iff.1 htarget
    refine ⟨fun hnil => hassignments (List.isEmpty_iff.2 hnil), target, filter, htarget, ?_, ?_⟩
    · rw [halias]
      exact hfilter
    · rw [← Except.ok.inj hf, joined_assignments]
      rfl
  · rintro ⟨hassignments, target, filter, htarget, hfilter, rfl⟩
    obtain ⟨-, -, halias, -⟩ := Target.resolve_eq_ok_iff.1 htarget
    rw [halias] at hfilter
    have hnonempty : q.assignments.isEmpty = false := by simpa using hassignments
    rw [sql, htarget]
    simp only [bind, Except.bind, hnonempty, Target.scope, hfilter, joined_assignments]
    rfl

end

/-- The assignments of an update that is built by steps are an ordered map: each column that a step
assigns has one, in the order of first assignment, and with the value assigned last. The steps that
assign change nothing else. The update is written exactly if there is such a step, and its table and
its filter are accepted; then the list has every column once, with a placeholder, and the values
stand in front of those of the filter. -/
theorem sql_build (d : Dialect) (table : String) (edits : List Edit) :
    let q := (ofTable table).build edits
    let columns := q.assignments.map Prod.fst
    Records (assigned edits) q.assignments ∧ columns.Nodup ∧
      { q with assignments := [] } = (ofTable table).build (others edits) ∧
      ∀ f, q.sql d = .ok f ↔
        assigned edits ≠ [] ∧ ∃ target filter,
          Target.resolve (some table) q.schema q.tableAlias = .ok target ∧
          q.filter.clause ⟨d, q.tableAlias⟩ = .ok filter ∧
          f.text = "UPDATE " ++ target.nameAliased d ++ " SET " ++ String.intercalate ","
            (columns.map fun c => d.quote c ++ " = " ++ d.placeholder) ++ filter.text ∧
          f.bindings = (q.assignments.map fun a => a.2.binding) ++ filter.bindings := by
  intro q columns
  have hbuild := build_eq (ofTable table) edits
  have hassignments : q.assignments =
      (assigned edits).foldl (fun as a => assign a.1 a.2 as) [] := congrArg assignments hbuild
  have hrecords : Records (assigned edits) q.assignments := hassignments ▸ records_foldl _
  have hothers : ((ofTable table).build (others edits)).assignments = [] := by
    rw [build_eq, assigned_others]
    rfl
  refine ⟨hrecords, hrecords.nodup, ?_, fun f => ?_⟩
  · calc { q with assignments := [] }
        = { (ofTable table).build (others edits) with assignments := [] } :=
          congrArg (fun b : Update => { b with assignments := [] }) hbuild
      _ = (ofTable table).build (others edits) := by rw [← hothers]
  · have htable : q.table = some table := table_build (ofTable table) edits
    rw [sql_eq_ok_iff, htable, ne_eq, hrecords.eq_nil_iff]
    simp only [Fragment.ext_iff]
    rfl

/-- Columns that are assigned twice, one of them with an empty name, and steps between them that do
not assign. -/
def movedTask : List Edit :=
  [.set "state" (.string "open"), .tableAlias "t",
    .filter (.add .and (.eq ⟨"id", none⟩ (.int 7))), .set "" .null,
    .set "tags" (.list [.string "a", .string "b"]), .schema "app", .set "state" (.string "done"),
    .filter (.add .or (.isNull ⟨"owner", none⟩)), .set "" (.bool true),
    .set "state" (.string "open")]

theorem sql_build_movedTask :
    let q := (ofTable "tasks").build movedTask
    Records (assigned movedTask) q.assignments ∧
      q.assignments = [("state", .string "open"), ("", .bool true),
        ("tags", .list [.string "a", .string "b"])] ∧
      (given "state" (assigned movedTask)).getLast? = some (.string "open") ∧
      { q with assignments := [] } = (ofTable "tasks").build (others movedTask) ∧
      ∃ f filter, q.sql .mysql = .ok f ∧ q.filter.clause ⟨.mysql, some "t"⟩ = .ok filter ∧
        f.text = "UPDATE \x60app\x60.\x60tasks\x60 as \x60t\x60 SET " ++
          "\x60state\x60 = ?,\x60\x60 = ?,\x60tags\x60 = ?" ++
          " WHERE \x60t\x60.\x60id\x60 = ? OR \x60t\x60.\x60owner\x60 IS NULL" ∧
        f.bindings = [.string "open", .bool true, .string "a,b"] ++ filter.bindings ∧
        filter.bindings = [.int 7] := by
  intro q
  obtain ⟨hrecords, -, hothers, hsql⟩ := sql_build .mysql "tasks" movedTask
  have hwritten : q.sql .mysql = .ok (q.layout.write .mysql) :=
    (Query.sql_eq_ok_iff Dialect.visible_mysql (q := .update q)).2 ⟨rfl, rfl⟩
  obtain ⟨-, target, filter, -, hfilter, -, hbindings⟩ := (hsql _).1 hwritten
  have hall : (q.layout.write .mysql).bindings =
      [.string "open", .bool true, .string "a,b", .int 7] := rfl
  exact ⟨hrecords, rfl, hrecords.last ("state", .string "open") (List.mem_cons_self ..), hothers,
    _, filter, hwritten, hfilter, by decide +kernel, hbindings,
    (List.append_right_inj _).1 (hbindings.symm.trans hall)⟩

end Update
end BoundSql
