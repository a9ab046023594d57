import BoundSql.Proofs.Layout.Clause
import BoundSql.Schema.Index
import BoundSql.Schema.Table

/-!
# Layouts of definitions

Tables and indexes are laid out without any joining that leaves parts out, so their layouts are
written by every dialect. A definition has no placeholders: a raw default keeps its text alone.
-/
namespace BoundSql

open Layout

namespace ColumnDefault

/-- The layout of a default; a blank one has none. -/
def layout? : ColumnDefault → Option Layout
  | .text t =>
    if Text.trim t = "" then none else some [.words "DEFAULT ", .literal (Text.trim t)]
  | .int n => some [.words "DEFAULT ", .words (Value.int64Text n)]
  | .float x => some [.words "DEFAULT ", .words (Number.FloatFormat.plain.text x)]
  | .raw r =>
    if Text.isBlank r.text then none else some [.words "DEFAULT ", .raw ⟨r.text, []⟩]

theorem clause?_eq (d : Dialect) (c : ColumnDefault) :
    c.clause?.map Fragment.ofText = c.layout?.map (write d) := by
  cases c with
  | text t =>
    simp only [clause?, layout?]
    split
    · rfl
    · simp [Piece.sql, Fragment.ofText_append, Fragment.append_empty]
  | int n => simp [clause?, layout?, Piece.sql, Fragment.ofText_append, Fragment.append_empty]
  | float x => simp [clause?, layout?, Piece.sql, Fragment.ofText_append, Fragment.append_empty]
  | raw r =>
    simp only [clause?, layout?]
    split
    · rfl
    · simp only [Option.map_some, Option.some.injEq]
      ext1 <;> simp [Piece.sql, RawSql.sql]

end ColumnDefault

namespace Column

def typeLayout (c : Column) : Layout :=
  .words c.type.keyword ::
    match c.type with
    | .string => [.words "(", .words (uint32Text (c.arg 0 255)), .words ")"]
    | .boolean => [.words "(", .words "1", .words ")"]
    | .float | .double | .decimal =>
      [.words "(", .words (uint32Text (c.arg 0 8)), .words ",", .words (uint32Text (c.arg 1 2)),
        .words ")"]
    | .set | .enumeration =>
      .words "(" :: (List.intercalate [.words ","] (c.members.map fun m => [.literal m]) ++
        [.words ")"])
    | _ => []

def literalLayout? (keyword : String) (text : Option String) : Option Layout :=
  (text.filter fun t => !Text.isBlank t).map fun t => [.words keyword, .words " ", .literal t]

def flagLayout? (keyword : String) (flag : Bool) : Option Layout :=
  if flag then some [.words keyword] else none

def modifierLayouts (c : Column) : List Layout :=
  [flagLayout? "UNSIGNED" c.unsigned, literalLayout? "CHARACTER SET" c.charset,
    literalLayout? "COLLATE" c.collation, flagLayout? "NOT NULL" c.notNull,
    c.default.bind ColumnDefault.layout?, flagLayout? "AUTO_INCREMENT" c.autoIncrement,
    literalLayout? "COMMENT" c.comment].filterMap id

def layout (c : Column) : Layout :=
  List.intercalate [.words " "] ([.name c.name] :: c.typeLayout :: c.modifierLayouts)

theorem flatMap_modifierLayouts {α : Type} (g : Layout → List α) (c : Column) :
    c.modifierLayouts.flatMap g =
      [flagLayout? "UNSIGNED" c.unsigned, literalLayout? "CHARACTER SET" c.charset,
        literalLayout? "COLLATE" c.collation, flagLayout? "NOT NULL" c.notNull,
        c.default.bind ColumnDefault.layout?, flagLayout? "AUTO_INCREMENT" c.autoIncrement,
        literalLayout? "COMMENT" c.comment].flatMap fun m => m.elim [] g := by
  have hpresent : ∀ modifiers : List (Option Layout),
      (modifiers.filterMap id).flatMap g = modifiers.flatMap fun m => m.elim [] g := by
    intro modifiers
    induction modifiers with
    | nil => rfl
    | cons m rest ih =>
      cases m with
      | none => exact ih
      | some l => exact congrArg (g l ++ ·) ih
  rw [modifierLayouts, hpresent]

section
variable (d : Dialect)

theorem literals_eq (members : List String) :
    Fragment.ofText (String.intercalate "," (members.map Text.literal)) =
      write d (List.intercalate [.words ","] (members.map fun m => [.literal m])) := by
  rw [write_intercalate]
  ext1 <;> simp [Piece.sql, Function.comp_def, List.flatMap_map]

theorem typeText_eq (c : Column) : Fragment.ofText c.typeText = write d c.typeLayout := by
  have hmembers := literals_eq d c.members
  unfold typeText typeLayout
  cases c.type
  case boolean => apply Fragment.ext_chars <;> simp [Piece.sql]
  case set | enumeration =>
    simp [Piece.sql, Fragment.ofText_append, Fragment.append_assoc, Fragment.append_empty,
      ← hmembers]
  all_goals
    simp [Piece.sql, Fragment.ofText_append, Fragment.append_assoc, Fragment.append_empty]

theorem literalClause?_eq (keyword : String) (text : Option String) :
    (literalClause? keyword text).map Fragment.ofText =
      (literalLayout? keyword text).map (write d) := by
  unfold literalClause? literalLayout?
  cases text.filter fun t => !Text.isBlank t with
  | none => rfl
  | some t =>
    simp [Piece.sql, Fragment.ofText_append, Fragment.append_assoc, Fragment.append_empty]

theorem flagClause?_eq (keyword : String) (flag : Bool) :
    (flagClause? keyword flag).map Fragment.ofText = (flagLayout? keyword flag).map (write d) := by
  cases flag <;> simp [flagClause?, flagLayout?, Piece.sql, Fragment.append_empty]

theorem modifiers_eq (c : Column) :
    c.modifiers.map Fragment.ofText = c.modifierLayouts.map (write d) := by
  have hdefault : (c.default.bind ColumnDefault.clause?).map Fragment.ofText =
      (c.default.bind ColumnDefault.layout?).map (write d) := by
    cases c.default with
    | none => rfl
    | some v => exact ColumnDefault.clause?_eq d v
  unfold modifiers modifierLayouts
  rw [List.map_filterMap, List.map_filterMap]
  simp only [List.filterMap_cons, id, literalClause?_eq d, flagClause?_eq d, hdefault,
    List.filterMap_nil]

/-- A definition is its name, its type and its modifiers. -/
theorem text_eq (c : Column) : Fragment.ofText (c.text d) = write d c.layout := by
  have hparts : (d.quote c.name :: c.typeText :: c.modifiers).map Fragment.ofText =
      ([Piece.name c.name] :: c.typeLayout :: c.modifierLayouts).map (write d) := by
    simp [typeText_eq d, modifiers_eq d, Piece.sql, Fragment.append_empty]
  exact ofText_intercalate d " " hparts

end
end Column

namespace ForeignKey

def layout (k : ForeignKey) : Layout :=
  [.words "FOREIGN KEY (", .name k.column, .words ") REFERENCES ", .name k.referencedTable,
    .words "(", .name k.referencedColumn, .words ") ON DELETE ", .words k.onDelete.keyword,
    .words " ON UPDATE ", .words k.onUpdate.keyword]

theorem text_eq (d : Dialect) (k : ForeignKey) : Fragment.ofText (k.text d) = write d k.layout := by
  unfold text layout
  simp only [Fragment.ofText_append, write_cons, write_nil, Piece.sql]
  rw [Fragment.append_empty]
  simp only [Fragment.append_assoc]

end ForeignKey

theorem Dialect.ofText_names (d : Dialect) (names : List String) :
    Fragment.ofText (String.intercalate "," (names.map d.quote)) =
      write d (List.intercalate [.words ","] (names.map fun n => [.name n])) := by
  refine ofText_intercalate d "," ?_
  simp [Piece.sql, Fragment.append_empty]

namespace CreateTable

def primaryKeyLayouts (columns : List Column) : List Layout :=
  match columns.filter Column.primaryKey with
  | [] => []
  | marked =>
    [.words "PRIMARY KEY (" ::
      (List.intercalate [.words ","] ((marked.map Column.name).map fun n => [.name n]) ++
        [.words ")"])]

def bodyLayout (columns : List Column) (foreignKeys : List ForeignKey) : Layout :=
  List.intercalate [.words ","] (columns.map Column.layout) ++
    match primaryKeyLayouts columns ++ foreignKeys.map ForeignKey.layout with
    | [] => []
    | keys => .words " , " :: List.intercalate [.words ","] keys

def check (q : CreateTable) : Except Error Unit := do
  let _ ← Target.resolve q.table q.schema none
  if q.columns.isEmpty then throw .noTableColumns
  q.columns.forM Column.check
  q.foreignKeys.forM ForeignKey.check

def layout (q : CreateTable) : Layout :=
  .words "CREATE TABLE " :: (Target.nameLayout ⟨q.table.getD "", q.schema, none⟩ ++
    .words " (" :: (bodyLayout q.columns q.foreignKeys ++ [.words ")"]))

/-- A table shows the definitions of its columns, and in its primary key their names again. -/
theorem bodyLayout_map {f : Column → Column} (hlayout : ∀ c, (f c).layout = c.layout)
    (hname : ∀ c, (f c).name = c.name) (hprimary : ∀ c, (f c).primaryKey = c.primaryKey)
    (columns : List Column) (foreignKeys : List ForeignKey) :
    bodyLayout (columns.map f) foreignKeys = bodyLayout columns foreignKeys := by
  have hmarked : (columns.map f).filter Column.primaryKey =
      (columns.filter Column.primaryKey).map f := by
    rw [List.filter_map]
    exact congrArg (fun p => (columns.filter p).map f) (funext hprimary)
  have hkey : primaryKeyLayouts (columns.map f) = primaryKeyLayouts columns := by
    unfold primaryKeyLayouts
    rw [hmarked]
    cases columns.filter Column.primaryKey with
    | nil => rfl
    | cons c rest => simp only [List.map_cons, List.map_map, Function.comp_def, hname]
  rw [bodyLayout, bodyLayout, hkey, List.map_map]
  simp only [Function.comp_def, hlayout]

section
variable (d : Dialect)

theorem primaryKeyText_eq (columns : List Column) :
    (primaryKeyText d columns).map Fragment.ofText = (primaryKeyLayouts columns).map (write d) := by
  unfold primaryKeyText primaryKeyLayouts
  cases hmarked : columns.filter Column.primaryKey with
  | nil => rfl
  | cons c rest =>
    have hnames := d.ofText_names ((c :: rest).map Column.name)
    rw [List.map_map] at hnames
    have hkey : Fragment.ofText ("PRIMARY KEY (" ++
        String.intercalate "," ((c :: rest).map (d.quote ∘ Column.name)) ++ ")") =
          write d (.words "PRIMARY KEY (" :: (List.intercalate [.words ","]
            (((c :: rest).map Column.name).map fun n => [.name n]) ++ [.words ")"])) := by
      rw [Fragment.ofText_append, Fragment.ofText_append, hnames, write_cons, write_append,
        write_singleton, Fragment.append_assoc]
      rfl
    exact congrArg (fun f => [f]) hkey

theorem body_eq (columns : List Column) (foreignKeys : List ForeignKey) :
    Fragment.ofText (body d columns foreignKeys) = write d (bodyLayout columns foreignKeys) := by
  have hcolumns : Fragment.ofText (String.intercalate "," (columns.map (Column.text d))) =
      write d (List.intercalate [.words ","] (columns.map Column.layout)) :=
    ofText_intercalate d "," (by simp [Column.text_eq])
  have hkeys : (primaryKeyText d columns ++ foreignKeys.map (ForeignKey.text d)).map
      Fragment.ofText =
        (primaryKeyLayouts columns ++ foreignKeys.map ForeignKey.layout).map (write d) := by
    simp [primaryKeyText_eq, ForeignKey.text_eq]
  unfold body bodyLayout
  generalize primaryKeyText d columns ++ foreignKeys.map (ForeignKey.text d) = texts at hkeys
  generalize primaryKeyLayouts columns ++ foreignKeys.map ForeignKey.layout = layouts at hkeys
  cases texts with
  | nil =>
    have hnil : layouts = [] := by simpa using hkeys.symm
    simp [hnil, hcolumns]
  | cons text texts =>
    cases layouts with
    | nil => simp at hkeys
    | cons l layouts =>
      have htexts := ofText_intercalate d "," hkeys
      simp only [Fragment.ofText_append, write_append, write_cons, Piece.sql, hcolumns, htexts,
        Fragment.append_assoc]

theorem sql_eq (q : CreateTable) : q.sql d = q.check.map fun _ => write d q.layout := by
  obtain ⟨table, schema, columns, foreignKeys⟩ := q
  rw [sql, check]
  cases htarget : Target.resolve table schema none with
  | error e => rfl
  | ok target =>
    obtain ⟨rfl, rfl, -⟩ := Target.resolve_eq_ok_iff.1 htarget
    simp only [bind, Except.bind, pure, Except.pure, Fragment.ofText_append, Target.name_eq,
      body_eq]
    split
    · rfl
    · cases columns.forM Column.check with
      | error e => rfl
      | ok u =>
        cases foreignKeys.forM ForeignKey.check with
        | error e => rfl
        | ok u =>
          simp only [Except.map, layout, write_cons, write_append, Piece.sql, Option.getD_some,
            Fragment.append_assoc, write_nil, Fragment.append_empty]
          rfl

end
end CreateTable

namespace CreateIndex

def check (q : CreateIndex) : Except Error Unit := do
  let _ ← Target.resolve q.table q.schema none
  if Text.isBlank q.name then throw .blankIndex
  if q.columns.isEmpty then throw .noIndexColumns

def layout (q : CreateIndex) : Layout :=
  .words "CREATE " :: ((if q.unique then [.words "UNIQUE "] else []) ++ .words "INDEX " ::
    .name q.name :: .words " ON " :: (Target.nameLayout ⟨q.table.getD "", q.schema, none⟩ ++
      .words " (" :: (List.intercalate [.words ","] (q.columns.map fun n => [.name n]) ++
        [.words ")"])))

theorem sql_eq (d : Dialect) (q : CreateIndex) :
    q.sql d = q.check.map fun _ => write d q.layout := by
  obtain ⟨table, schema, name, unique, columns⟩ := q
  rw [sql, check]
  cases htarget : Target.resolve table schema none with
  | error e => rfl
  | ok target =>
    obtain ⟨rfl, rfl, -⟩ := Target.resolve_eq_ok_iff.1 htarget
    simp only [bind, Except.bind, pure, Except.pure, Fragment.ofText_append, Target.name_eq,
      Dialect.ofText_names]
    split
    · rfl
    · split
      · rfl
      · cases unique <;>
          simp only [Except.map, layout, write_cons, write_append, Piece.sql, Option.getD_some,
            Fragment.append_assoc, write_nil, Fragment.append_empty] <;> rfl

end CreateIndex
end BoundSql
