import BoundSql.Proofs.Layout.Schema

/-!
# Contents of definitions

A definition holds words, names and what its columns supply: literals, and raw SQL as a default.
Whatever is collected without the words is collected from the name of the table, then column by
column, and in a column from its name, the members, the character set, the collation, the default
and the comment, and at last from the names in the keys.
-/
namespace BoundSql

open Layout

/-- Nothing is collected from words and names. -/
structure Piece.Collects {α : Type} (g : Piece → List α) : Prop where
  words : ∀ s, g (.words s) = []
  name : ∀ n, g (.name n) = []

namespace Layout

variable {α : Type} {g : Piece → List α}

theorem flatMap_names (hg : Piece.Collects g) (names : List String) :
    (names.map Piece.name).flatMap g = [] := by
  rw [List.flatMap_map]
  exact List.flatMap_eq_nil_iff.2 fun n _ => hg.name n

variable (hwords : ∀ s, g (.words s) = [])
include hwords

theorem flatMap_intercalate (separator : String) (parts : List Layout) :
    (List.intercalate [.words separator] parts).flatMap g = parts.flatMap (List.flatMap g) := by
  induction parts with
  | nil => rfl
  | cons l rest ih =>
    cases rest with
    | nil => simp
    | cons m rest =>
      rw [List.intercalate_cons_cons, List.flatMap_append, List.flatMap_append, ih,
        List.flatMap_cons]
      simp [hwords]

theorem flatMap_listed (item : String → Piece) (texts : List String) :
    (List.intercalate [.words ","] (texts.map fun s => [item s])).flatMap g =
      (texts.map item).flatMap g := by
  rw [flatMap_intercalate hwords, List.flatMap_map, List.flatMap_map]
  simp

end Layout

/-! ## Columns -/

/-- Text as it stands in the literal of a default; a raw default keeps its text alone. -/
def ColumnDefault.contents : ColumnDefault → Layout
  | .text t => if Text.trim t = "" then [] else [.literal (Text.trim t)]
  | .int _ => []
  | .float _ => []
  | .raw r => if Text.isBlank r.text then [] else [.raw ⟨r.text, []⟩]

namespace Column

/-- The members, if the type has any. -/
def shownMembers (c : Column) : List String := if c.type.hasMembers then c.members else []

/-- A text that is not left out. -/
def shownText (text : Option String) : Option String := text.filter fun t => !Text.isBlank t

/-- What a column supplies, in the order in which it is written. -/
def contents (c : Column) : Layout :=
  (c.shownMembers ++ (shownText c.charset).toList ++ (shownText c.collation).toList).map .literal ++
    c.default.elim [] ColumnDefault.contents ++ (shownText c.comment).toList.map .literal

variable {α : Type} {g : Piece → List α} (hwords : ∀ s, g (.words s) = [])
include hwords

theorem flatMap_typeLayout (c : Column) :
    c.typeLayout.flatMap g = (c.shownMembers.map .literal).flatMap g := by
  have hmembers := flatMap_listed hwords .literal c.members
  rw [typeLayout, List.flatMap_cons, hwords, List.nil_append, shownMembers]
  cases c.type
  case set | enumeration => simpa [hwords, ColumnType.hasMembers] using hmembers
  all_goals simp [hwords, ColumnType.hasMembers]

theorem flatMap_flagLayout (keyword : String) (flag : Bool) :
    (flagLayout? keyword flag).elim [] (List.flatMap g) = [] := by
  cases flag <;> simp [flagLayout?, hwords]

theorem flatMap_literalLayout (keyword : String) (text : Option String) :
    (literalLayout? keyword text).elim [] (List.flatMap g) =
      ((shownText text).toList.map .literal).flatMap g := by
  rw [literalLayout?, shownText]
  cases text.filter fun t => !Text.isBlank t <;> simp [hwords]

theorem flatMap_defaultLayout (value : Option ColumnDefault) :
    (value.bind ColumnDefault.layout?).elim [] (List.flatMap g) =
      (value.elim [] ColumnDefault.contents).flatMap g := by
  cases value with
  | none => rfl
  | some v =>
    rw [Option.bind_some, Option.elim_some]
    cases v with
    | int n | float x => simp [ColumnDefault.layout?, ColumnDefault.contents, hwords]
    | text t =>
      rw [ColumnDefault.layout?, ColumnDefault.contents]
      split <;> simp [hwords]
    | raw r =>
      rw [ColumnDefault.layout?, ColumnDefault.contents]
      split <;> simp [hwords]

/-- A column is its name and its contents among words. -/
theorem flatMap_layout (c : Column) :
    c.layout.flatMap g = g (.name c.name) ++ c.contents.flatMap g := by
  rw [layout, flatMap_intercalate hwords, List.flatMap_cons, List.flatMap_singleton,
    List.flatMap_cons, flatMap_typeLayout hwords, flatMap_modifierLayouts]
  simp only [List.flatMap_cons, List.flatMap_nil, flatMap_flagLayout hwords,
    flatMap_literalLayout hwords, flatMap_defaultLayout hwords, contents, List.map_append,
    List.flatMap_append, List.append_assoc, List.nil_append, List.append_nil]

end Column

/-! ## Statements -/

/-- The names in a foreign key. -/
def ForeignKey.names (k : ForeignKey) : List String :=
  [k.column, k.referencedTable, k.referencedColumn]

/-- The names of the columns that are marked for the primary key. -/
def CreateTable.primaryNames (columns : List Column) : List String :=
  (columns.filter Column.primaryKey).map Column.name

/-- The names in all keys of a table. -/
def CreateTable.keyNames (q : CreateTable) : List String :=
  primaryNames q.columns ++ q.foreignKeys.flatMap ForeignKey.names

section
variable {α : Type} {g : Piece → List α} (hwords : ∀ s, g (.words s) = [])
include hwords

theorem Target.flatMap_nameLayout (t : Target) :
    t.nameLayout.flatMap g = ((t.schema.toList ++ [t.table]).map .name).flatMap g := by
  rw [nameLayout]
  cases t.schema <;> simp [hwords]

theorem ForeignKey.flatMap_layout (k : ForeignKey) :
    k.layout.flatMap g = (k.names.map .name).flatMap g := by
  simp [layout, names, hwords]

namespace CreateTable

theorem flatMap_primaryKeyLayouts (columns : List Column) :
    (primaryKeyLayouts columns).flatMap (List.flatMap g) =
      ((primaryNames columns).map .name).flatMap g := by
  unfold primaryKeyLayouts primaryNames
  split
  · rename_i hnone
    rw [hnone]
    rfl
  · rw [List.flatMap_singleton, List.flatMap_cons, List.flatMap_append,
      flatMap_listed hwords .name]
    simp [hwords]

theorem flatMap_keyLayouts (q : CreateTable) :
    (primaryKeyLayouts q.columns ++ q.foreignKeys.map ForeignKey.layout).flatMap (List.flatMap g) =
      (q.keyNames.map .name).flatMap g := by
  have hforeign : (q.foreignKeys.map ForeignKey.layout).flatMap (List.flatMap g) =
      ((q.foreignKeys.flatMap ForeignKey.names).map .name).flatMap g := by
    rw [List.flatMap_map, List.map_flatMap, List.flatMap_assoc]
    exact congrArg q.foreignKeys.flatMap (funext (ForeignKey.flatMap_layout hwords))
  rw [List.flatMap_append, flatMap_primaryKeyLayouts hwords, hforeign, keyNames, List.map_append,
    List.flatMap_append]

/-- A table is its name, its columns and the names in its keys, among words. -/
theorem flatMap_layout (q : CreateTable) :
    q.layout.flatMap g =
      ((q.schema.toList ++ [q.table.getD ""]).map .name).flatMap g ++
        (q.columns.flatMap fun c => g (.name c.name) ++ c.contents.flatMap g) ++
        (q.keyNames.map .name).flatMap g := by
  have hcolumns : ∀ c : Column, c.layout.flatMap g = g (.name c.name) ++ c.contents.flatMap g :=
    Column.flatMap_layout hwords
  have hbody : (bodyLayout q.columns q.foreignKeys).flatMap g =
      (q.columns.flatMap fun c => g (.name c.name) ++ c.contents.flatMap g) ++
        (q.keyNames.map .name).flatMap g := by
    rw [bodyLayout, List.flatMap_append, flatMap_intercalate hwords, List.flatMap_map,
      ← flatMap_keyLayouts hwords]
    simp only [hcolumns]
    split
    · rename_i hnone
      rw [hnone]
      rfl
    · rw [List.flatMap_cons, hwords, flatMap_intercalate hwords]
      rfl
  rw [layout, List.flatMap_cons, List.flatMap_append, List.flatMap_cons, List.flatMap_append,
    Target.flatMap_nameLayout hwords, hbody]
  simp [hwords]

end CreateTable

/-- An index is names among words. -/
theorem CreateIndex.flatMap_layout (q : CreateIndex) :
    q.layout.flatMap g =
      ((q.name :: (q.schema.toList ++ q.table.getD "" :: q.columns)).map .name).flatMap g := by
  have hunique : (if q.unique then [Piece.words "UNIQUE "] else []).flatMap g = [] := by
    cases q.unique <;> simp [hwords]
  rw [layout, List.flatMap_cons, List.flatMap_append, hunique]
  simp only [List.flatMap_cons, List.flatMap_append, Target.flatMap_nameLayout hwords,
    flatMap_listed hwords .name, hwords, List.map_cons, List.map_append, List.nil_append,
    List.flatMap_nil, List.append_nil, List.append_assoc]
  simp

end
end BoundSql
