import BoundSql.Proofs.Renaming.Check
import Mathlib.Logic.Equiv.Basic

/-!
# Injection safety

Changes and definitions are renamed like queries. Together: no choice of names changes which
statements compile, what they bind, or any token that is not one of the names.
-/
namespace BoundSql

open Layout Text

theorem List.eraseDups_map {α β : Type} [DecidableEq α] [DecidableEq β] {f : α → β}
    (hf : Function.Injective f) (as : List α) : (as.map f).eraseDups = as.eraseDups.map f := by
  induction h : as.length using Nat.strongRecOn generalizing as with
  | _ n ih =>
    cases as with
    | nil => rfl
    | cons a as =>
      have hfilter : (as.map f).filter (fun b => !b == f a) =
          (as.filter fun b => !b == a).map f := by
        rw [List.filter_map]
        congr 1
        apply List.filter_congr
        intro b _
        simp [hf.eq_iff]
      have hlt : (as.filter fun b => !b == a).length < n := by
        have hle := List.length_filter_le (fun b => !b == a) as
        simp only [List.length_cons] at h
        omega
      rw [List.map_cons, List.eraseDups_cons, List.eraseDups_cons, List.map_cons, hfilter,
        ih _ hlt _ rfl]

theorem Layout.names_rename (r : String → String) (names : List String) :
    List.intercalate [.words ","] ((names.map r).map fun n => [.name n]) =
      Layout.rename r (List.intercalate [.words ","] (names.map fun n => [.name n])) := by
  rw [← intercalate_rename, List.map_map, List.map_map]
  rfl

section
variable {r : String → String} (hr : IsRenaming r)
include hr

/-! ## Changes -/

theorem Filter.clauseLayout_rename (tableAlias : Option String) {f : Filter}
    (h : f.check = .ok ()) :
    headed " WHERE " ((f.rename r).layout (tableAlias.map r)) =
      (headed " WHERE " (f.layout tableAlias)).rename r := by
  rw [Filter.layout_rename hr tableAlias f h, headed_rename]

namespace Update

theorem check_rename (q : Update) : (q.rename r).check = q.check.mapError (Error.rename r) := by
  obtain ⟨table, schema, tableAlias, assignments, filter⟩ := q
  rw [rename, check, check, Target.resolve_rename hr, Filter.check_rename hr]
  cases Target.resolve table schema tableAlias with
  | error e => rfl
  | ok t => cases assignments <;> rfl

theorem layout_rename {q : Update} (h : q.check = .ok ()) :
    (q.rename r).layout = q.layout.rename r := by
  obtain ⟨htable, hfilter⟩ := check_eq_ok h
  obtain ⟨table, schema, tableAlias, assignments, filter⟩ := q
  obtain ⟨table, rfl⟩ := Option.isSome_iff_exists.1 htable
  have htarget : Target.layout ⟨r table, schema.map r, tableAlias.map r⟩ = _ :=
    Target.layout_rename r ⟨table, schema, tableAlias⟩
  have hwhere := Filter.clauseLayout_rename hr tableAlias hfilter
  have hset : joined "," ((assignments.map fun a => (r a.1, a.2)).map assignmentLayout) =
      (joined "," (assignments.map assignmentLayout)).rename r := by
    rw [← joined_rename, List.map_map, List.map_map]
    rfl
  simp only [Update.rename, layout, Option.map_some, Option.getD_some, htarget, hwhere, hset,
    rename_cons, rename_append]
  rfl

end Update

namespace Delete

theorem check_rename (q : Delete) : (q.rename r).check = q.check.mapError (Error.rename r) := by
  obtain ⟨table, schema, tableAlias, filter, limits, truncate⟩ := q
  rw [rename, check, check, Target.resolve_rename hr, Filter.check_rename hr]
  cases Target.resolve table schema tableAlias with
  | error e => rfl
  | ok t => cases truncate <;> rfl

theorem layout_rename {q : Delete} (h : q.check = .ok ()) :
    (q.rename r).layout = q.layout.rename r := by
  obtain ⟨htable, hfilter⟩ := check_eq_ok h
  obtain ⟨table, schema, tableAlias, filter, limits, truncate⟩ := q
  obtain ⟨table, rfl⟩ := Option.isSome_iff_exists.1 htable
  cases truncate with
  | true =>
    have hname : Target.nameLayout ⟨r table, schema.map r, tableAlias.map r⟩ = _ :=
      Target.nameLayout_rename r ⟨table, schema, tableAlias⟩
    simp only [Delete.rename, layout, Option.map_some, Option.getD_some, hname, if_true,
      rename_cons]
    rfl
  | false =>
    have htarget : Target.layout ⟨r table, schema.map r, tableAlias.map r⟩ = _ :=
      Target.layout_rename r ⟨table, schema, tableAlias⟩
    have hwhere := Filter.clauseLayout_rename hr tableAlias (hfilter rfl)
    simp only [Delete.rename, layout, Option.map_some, Option.getD_some, htarget, hwhere,
      Bool.false_eq_true, if_false, rename_cons, rename_append, Limits.limitLayout_rename]
    rfl

end Delete

namespace Insert

theorem columnNames_rename (q : Insert) : (q.rename r).columnNames = q.columnNames.map r := by
  rw [columnNames, columnNames, ← List.eraseDups_map hr.injective, Insert.rename,
    List.flatMap_map, List.map_flatMap]
  simp [Row.rename, Function.comp_def]

theorem cell_rename (row : Row) (column : String) :
    (row.rename r).cell (r column) = row.cell column := by
  obtain ⟨fields⟩ := row
  rw [Row.cell, Row.cell, Row.rename]
  congr 1
  induction fields with
  | nil => rfl
  | cons field fields ih =>
    have hname : (r column == r field.1) = (column == field.1) := by
      rw [Bool.eq_iff_iff, beq_iff_eq, beq_iff_eq]
      exact hr.injective.eq_iff
    rw [List.map_cons, List.lookup_cons, List.lookup_cons, hname, ih]

omit hr in
theorem cellLayout_rename (c : Cell) : c.layout.rename r = c.layout := by
  cases c <;> rfl

theorem tupleLayout_rename (columns : List String) (row : Row) :
    tupleLayout (columns.map r) (row.rename r) = (tupleLayout columns row).rename r := by
  have hcells : ((columns.map r).map fun c => ((row.rename r).cell c).layout) =
      (columns.map fun c => (row.cell c).layout).map (Layout.rename r) := by
    rw [List.map_map, List.map_map]
    simp only [Function.comp_def, cell_rename hr, cellLayout_rename]
  rw [tupleLayout, tupleLayout, hcells, joined_rename]
  simp [Piece.rename]

theorem refreshCheck_rename (columns : List String) (item : Refresh) :
    refreshCheck (columns.map r) (item.rename r) =
      (refreshCheck columns item).mapError (Error.rename r) := by
  cases item with
  | column c =>
    have hmem : (columns.map r).contains (r c) = columns.contains c := by
      rw [Bool.eq_iff_iff]
      simp [hr.injective.eq_iff]
    rw [Refresh.rename, refreshCheck, refreshCheck, hmem]
    split <;> rfl
  | raw sql => rfl

theorem refreshLayout_rename (first : Row) (item : Refresh) :
    refreshLayout (first.rename r) (item.rename r) = (refreshLayout first item).rename r := by
  cases item with
  | column c =>
    simp [refreshLayout, Refresh.rename, cell_rename hr, cellLayout_rename, Piece.rename]
  | raw sql => rfl

omit hr in
theorem openingLayout_rename (t : Target) (ignore : Bool) (columns : List String) :
    openingLayout (t.rename r) ignore (columns.map r) =
      (openingLayout t ignore columns).rename r := by
  rw [openingLayout, openingLayout, names_rename, Target.nameLayout_rename]
  cases ignore <;> simp [Piece.rename]

theorem check_rename (q : Insert) : (q.rename r).check = q.check.mapError (Error.rename r) := by
  have hcolumns := columnNames_rename hr q
  obtain ⟨table, schema, rows, ignore, onDuplicate⟩ := q
  have hitems : (onDuplicate.map (List.map (Refresh.rename r))).getD [] =
      (onDuplicate.getD []).map (Refresh.rename r) := by
    cases onDuplicate <;> rfl
  have htable := Target.resolve_rename hr table schema none
  rw [Option.map_none] at htable
  rw [check, check, hcolumns, Insert.rename]
  simp only [htable, hitems, List.isEmpty_map,
    Except.forM_mapError (refreshCheck_rename hr _)]
  cases Target.resolve table schema none with
  | error e => rfl
  | ok t =>
    cases rows with
    | nil => rfl
    | cons row rows =>
      cases (Insert.columnNames _).isEmpty <;> rfl

theorem layout_rename {q : Insert} (h : q.check = .ok ()) :
    (q.rename r).layout = q.layout.rename r := by
  have hcolumns := columnNames_rename hr q
  obtain ⟨table, schema, rows, ignore, onDuplicate⟩ := q
  obtain ⟨table, rfl⟩ := Option.isSome_iff_exists.1 (Target.isSome_of_resolve h)
  have hfirst : (rows.map (Row.rename r)).headD .empty = (rows.headD .empty).rename r := by
    cases rows <;> rfl
  have hitems : (onDuplicate.map (List.map (Refresh.rename r))).getD [] =
      (onDuplicate.getD []).map (Refresh.rename r) := by
    cases onDuplicate <;> rfl
  have hopening : ∀ columns : List String,
      openingLayout ⟨r table, schema.map r, none⟩ ignore (columns.map r) =
        (openingLayout ⟨table, schema, none⟩ ignore columns).rename r := fun columns =>
    openingLayout_rename ⟨table, schema, none⟩ ignore columns
  rw [layout, layout, hcolumns, Insert.rename]
  simp only [Option.map_some, Option.getD_some, hfirst, hitems, List.map_map, Function.comp_def,
    hopening, tupleLayout_rename hr, refreshLayout_rename hr, rename_append, ← headed_rename,
    ← joined_rename]

end Insert

/-! ## Definitions -/

namespace Column

theorem check_rename (c : Column) : (c.rename r).check = c.check.mapError (Error.rename r) := by
  rw [check, check, Column.rename]
  simp only [hr.blank]
  split
  · rfl
  · split <;> rfl

omit hr in
theorem typeLayout_rename (c : Column) : c.typeLayout.rename r = c.typeLayout := by
  have hmembers : Layout.rename r
      (List.intercalate [.words ","] (c.members.map fun m => [.literal m])) =
        List.intercalate [.words ","] (c.members.map fun m => [.literal m]) := by
    rw [← intercalate_rename, List.map_map]
    rfl
  unfold typeLayout
  cases c.type
  case set | enumeration => simp [Piece.rename, hmembers]
  all_goals rfl

omit hr in
theorem modifierLayouts_rename (c : Column) :
    c.modifierLayouts.map (Layout.rename r) = c.modifierLayouts := by
  have hflag : ∀ keyword flag,
      (flagLayout? keyword flag).map (Layout.rename r) = flagLayout? keyword flag := by
    intro keyword flag
    cases flag <;> rfl
  have hliteral : ∀ keyword text,
      (literalLayout? keyword text).map (Layout.rename r) = literalLayout? keyword text := by
    intro keyword text
    unfold literalLayout?
    cases text.filter fun t => !isBlank t <;> rfl
  have hdefault : (c.default.bind ColumnDefault.layout?).map (Layout.rename r) =
      c.default.bind ColumnDefault.layout? := by
    cases c.default with
    | none => rfl
    | some v =>
      cases v with
      | text t =>
        simp only [Option.bind_some, ColumnDefault.layout?]
        split <;> rfl
      | int n => rfl
      | float x => rfl
      | raw sql =>
        simp only [Option.bind_some, ColumnDefault.layout?]
        split <;> rfl
  unfold modifierLayouts
  rw [List.map_filterMap]
  simp only [List.filterMap_cons, id, hflag, hliteral, hdefault, List.filterMap_nil]

omit hr in
theorem layout_rename (c : Column) : (c.rename r).layout = c.layout.rename r := by
  have hparts : [Piece.name (r c.name)] :: c.typeLayout :: c.modifierLayouts =
      ([Piece.name c.name] :: c.typeLayout :: c.modifierLayouts).map (Layout.rename r) := by
    rw [List.map_cons, List.map_cons, typeLayout_rename, modifierLayouts_rename]
    rfl
  rw [layout, layout, ← intercalate_rename, ← hparts]
  rfl

end Column

namespace ForeignKey

theorem check_rename (k : ForeignKey) :
    (k.rename r).check = k.check.mapError (Error.rename r) := by
  rw [check, check, ForeignKey.rename]
  simp only [hr.blank]
  split <;> rfl

end ForeignKey

namespace CreateTable

theorem check_rename (q : CreateTable) :
    (q.rename r).check = q.check.mapError (Error.rename r) := by
  obtain ⟨table, schema, columns, foreignKeys⟩ := q
  have htable := Target.resolve_rename hr table schema none
  rw [Option.map_none] at htable
  rw [check, check, CreateTable.rename]
  simp only [htable, List.isEmpty_map, Except.forM_mapError (Column.check_rename hr),
    Except.forM_mapError (ForeignKey.check_rename hr)]
  cases Target.resolve table schema none with
  | error e => rfl
  | ok t =>
    cases columns.isEmpty with
    | true => rfl
    | false => exact (Except.mapError_bind ..).symm

omit hr in
theorem primaryKeyLayouts_rename (columns : List Column) :
    primaryKeyLayouts (columns.map (Column.rename r)) =
      (primaryKeyLayouts columns).map (Layout.rename r) := by
  have hmarked : (columns.map (Column.rename r)).filter Column.primaryKey =
      (columns.filter Column.primaryKey).map (Column.rename r) := by
    rw [List.filter_map]
    rfl
  unfold primaryKeyLayouts
  rw [hmarked]
  cases columns.filter Column.primaryKey with
  | nil => rfl
  | cons c rest =>
    have hnames : ((c :: rest).map (Column.rename r)).map Column.name =
        ((c :: rest).map Column.name).map r := by
      rw [List.map_map, List.map_map]
      rfl
    have hkey : Piece.words "PRIMARY KEY (" :: (List.intercalate [.words ","]
        ((((c :: rest).map (Column.rename r)).map Column.name).map fun n => [.name n]) ++
          [.words ")"]) =
        Layout.rename r (.words "PRIMARY KEY (" :: (List.intercalate [.words ","]
          (((c :: rest).map Column.name).map fun n => [.name n]) ++ [.words ")"])) := by
      rw [hnames, names_rename, rename_cons, rename_append]
      rfl
    exact congrArg (fun l => [l]) hkey

omit hr in
theorem bodyLayout_rename (columns : List Column) (foreignKeys : List ForeignKey) :
    bodyLayout (columns.map (Column.rename r)) (foreignKeys.map (ForeignKey.rename r)) =
      (bodyLayout columns foreignKeys).rename r := by
  have hcolumns : (columns.map (Column.rename r)).map Column.layout =
      (columns.map Column.layout).map (Layout.rename r) := by
    rw [List.map_map, List.map_map]
    exact List.map_congr_left fun c _ => c.layout_rename
  have hkeys : primaryKeyLayouts (columns.map (Column.rename r)) ++
      (foreignKeys.map (ForeignKey.rename r)).map ForeignKey.layout =
        (primaryKeyLayouts columns ++ foreignKeys.map ForeignKey.layout).map
          (Layout.rename r) := by
    rw [primaryKeyLayouts_rename, List.map_append, List.map_map, List.map_map]
    rfl
  rw [bodyLayout, bodyLayout, hcolumns, hkeys, intercalate_rename, rename_append]
  generalize primaryKeyLayouts columns ++ foreignKeys.map ForeignKey.layout = keys
  cases keys with
  | nil => rfl
  | cons k keys =>
    rw [List.map_cons]
    simp only [rename_cons, ← intercalate_rename, List.map_cons]
    rfl

omit hr in
theorem layout_rename {q : CreateTable} (h : q.check = .ok ()) :
    (q.rename r).layout = q.layout.rename r := by
  obtain ⟨table, schema, columns, foreignKeys⟩ := q
  obtain ⟨table, rfl⟩ := Option.isSome_iff_exists.1 (Target.isSome_of_resolve h)
  have hname : Target.nameLayout ⟨r table, schema.map r, none⟩ = _ :=
    Target.nameLayout_rename r ⟨table, schema, none⟩
  simp only [CreateTable.rename, layout, Option.map_some, Option.getD_some, hname,
    bodyLayout_rename, rename_cons, rename_append]
  rfl

end CreateTable

namespace CreateIndex

theorem check_rename (q : CreateIndex) :
    (q.rename r).check = q.check.mapError (Error.rename r) := by
  obtain ⟨table, schema, name, unique, columns⟩ := q
  have htable := Target.resolve_rename hr table schema none
  rw [Option.map_none] at htable
  rw [check, check, CreateIndex.rename]
  simp only [htable, hr.blank, List.isEmpty_map]
  cases Target.resolve table schema none with
  | error e => rfl
  | ok t => cases isBlank name <;> cases columns.isEmpty <;> rfl

omit hr in
theorem layout_rename {q : CreateIndex} (h : q.check = .ok ()) :
    (q.rename r).layout = q.layout.rename r := by
  obtain ⟨table, schema, name, unique, columns⟩ := q
  obtain ⟨table, rfl⟩ := Option.isSome_iff_exists.1 (Target.isSome_of_resolve h)
  have hname : Target.nameLayout ⟨r table, schema.map r, none⟩ = _ :=
    Target.nameLayout_rename r ⟨table, schema, none⟩
  rw [CreateIndex.rename, layout, layout]
  simp only [Option.map_some, Option.getD_some, hname, names_rename]
  cases unique <;> simp [Piece.rename]

end CreateIndex

/-! ## Statements -/

namespace Query

theorem check_rename (q : Query) : (q.rename r).check = q.check.mapError (Error.rename r) := by
  cases q with
  | select q => exact Select.check_rename hr q
  | insert q => exact Insert.check_rename hr q
  | update q => exact Update.check_rename hr q
  | delete q => exact Delete.check_rename hr q
  | createTable q => exact CreateTable.check_rename hr q
  | createIndex q => exact CreateIndex.check_rename hr q

theorem layout_rename {q : Query} (h : q.check = .ok ()) :
    (q.rename r).layout = q.layout.rename r := by
  cases q with
  | select q => exact Select.layout_rename hr q h
  | insert q => exact Insert.layout_rename hr h
  | update q => exact Update.layout_rename hr h
  | delete q => exact Delete.layout_rename hr h
  | createTable q => exact CreateTable.layout_rename h
  | createIndex q => exact CreateIndex.layout_rename h

/-- Names are data. A renamed statement without raw SQL is refused for the same cause or binds
the same values, and its text has the same tokens, the names in them renamed. -/
theorem sql_rename {q : Query} (hraws : q.raws = []) :
    match q.sql .mysql with
    | .error e => (q.rename r).sql .mysql = .error (e.rename r)
    | .ok f => ∃ g ts, (q.rename r).sql .mysql = .ok g ∧ g.bindings = f.bindings ∧
        tokens? f.text.toList = some ts ∧
        tokens? g.text.toList = some (ts.map (Token.rename r)) := by
  have hphrase := q.phrase_layout (R := fun _ => False) (by simp [hraws])
  rw [sql_eq Dialect.visible_mysql, sql_eq Dialect.visible_mysql, check_rename hr]
  cases hcheck : q.check with
  | error e => rfl
  | ok u =>
    refine ⟨_, q.layout.tokens, rfl, ?_, hphrase.tokens?_chars_eq, ?_⟩
    · rw [layout_rename hr hcheck, bindings_rename]
    · rw [layout_rename hr hcheck, ← hr.tokens]
      exact (hphrase.rename r).tokens?_chars_eq

end Query

end

/-! ## A hostile name -/

/-- The name of a table and a name that tries to end the statement, each for the other. -/
def hostileNames : String → String :=
  Equiv.swap "users" "\x60; DROP TABLE users; -- ?"

theorem isRenaming_hostileNames : IsRenaming hostileNames where
  injective := Equiv.injective _
  wildcard := by decide
  table := by decide
  member := by decide
  anchor := by decide
  blank name := by
    unfold hostileNames
    rw [Equiv.swap_apply_def]
    split
    · subst name
      decide
    · split
      · subst name
        decide
      · rfl

/-- Users without a row of the same table below them. -/
def Query.leafUsers : Query :=
  .select
    { Select.ofTable "users" with
      tableAlias := some "u"
      filter :=
        ⟨[.existence
            { Select.ofTable "users" with
              filter := ⟨[.comparison (.qualified "users" "parent") .eq (.string "users")], .and⟩ }
            true], .and⟩ }

theorem Query.sql_rename_leafUsers :
    IsRenaming hostileNames ∧ Query.leafUsers.raws = [] ∧
      ∃ f g ts, Query.leafUsers.sql .mysql = .ok f ∧
        (Query.leafUsers.rename hostileNames).sql .mysql = .ok g ∧
        f.bindings = [.string "users"] ∧ g.bindings = f.bindings ∧
        tokens? f.text.toList = some ts ∧
        tokens? g.text.toList = some (ts.map (Token.rename hostileNames)) := by
  have hsql : Query.leafUsers.sql .mysql = .ok (Query.leafUsers.layout.write .mysql) :=
    (Query.sql_eq_ok_iff Dialect.visible_mysql).2 ⟨rfl, rfl⟩
  have hrename := Query.sql_rename isRenaming_hostileNames (q := Query.leafUsers) rfl
  rw [hsql] at hrename
  obtain ⟨g, ts, hg, hbindings, hf, htokens⟩ := hrename
  exact ⟨isRenaming_hostileNames, rfl, _, g, ts, hsql, hg, rfl, hbindings, hf, htokens⟩

end BoundSql
