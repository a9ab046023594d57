import BoundSql.Proofs.Defaults
import BoundSql.Proofs.Reading.Definition
import Mathlib.Data.List.Nodup

/-!
# Reading tables

A table is read column by column, and then key by key. The primary key names its columns behind all
of them: a column belongs to it if its name is one of these, so the names of the columns must
differ. Two tables are one statement exactly if they have the same normal form.
-/
namespace BoundSql

open Text Layout

/-! ## Keys -/

namespace ReferentialAction

def table : List (String × ReferentialAction) := all.map fun a => (a.keyword, a)

theorem pairwise_table : table.Pairwise fun d e => clash d.1 e.1 = true := by
  decide

theorem mem_table (a : ReferentialAction) : (a.keyword, a) ∈ table :=
  List.mem_map_of_mem (by cases a <;> simp [all])

end ReferentialAction

namespace ForeignKey

def read : MarkReader ForeignKey := fun ms => do
  let (column, ms) ← before readName ") REFERENCES " (← skip? "FOREIGN KEY (" ms)
  let (referencedTable, ms) ← before readName "(" ms
  let (referencedColumn, ms) ← before readName ") ON DELETE " ms
  let (onDelete, ms) ← before (lookup? ReferentialAction.table) " ON UPDATE " ms
  let (onUpdate, ms) ← lookup? ReferentialAction.table ms
  return (⟨column, referencedTable, referencedColumn, onDelete, onUpdate⟩, ms)

theorem before_name (after name : String) (ms : List Mark) :
    before readName after (.name name :: (Text.marks after ++ ms)) = some (name, ms) :=
  before_eq rfl

theorem read_layout (k : ForeignKey) (rest : List Mark) :
    read (k.layout.marks ++ rest) = some (k, rest) := by
  have hname (name : String) : (Piece.name name).marks = [.name name] := rfl
  have hupdate := lookup?_marks ReferentialAction.pairwise_table k.onUpdate.mem_table rest
  have hdelete := before_eq (lookup?_marks ReferentialAction.pairwise_table k.onDelete.mem_table
    (Text.marks " ON UPDATE " ++ (Text.marks k.onUpdate.keyword ++ rest)))
  rw [layout]
  simp only [Layout.marks_cons, Layout.marks_nil, Piece.marks.eq_1, hname, List.append_assoc,
    List.cons_append, List.nil_append]
  simp only [read, skip?_marks, before_name, hdelete, hupdate, Option.bind_eq_bind,
    Option.bind_some]
  rfl

end ForeignKey

/-- A key as it stands in a definition. -/
inductive TableKey where
  | primary (names : List String)
  | foreign (key : ForeignKey)

namespace TableKey

def layout : TableKey → Layout
  | .primary names =>
    .words "PRIMARY KEY (" ::
      (List.intercalate [.words ","] (names.map fun n => [.name n]) ++ [.words ")"])
  | .foreign key => key.layout

def read : MarkReader TableKey := fun ms =>
  match skip? "PRIMARY KEY (" ms with
  | some ms => (before (manyAll "," readName) ")" ms).map fun (names, ms) => (.primary names, ms)
  | none => (ForeignKey.read ms).map fun (key, ms) => (.foreign key, ms)

/-- The columns of a primary key. -/
def names : TableKey → List String
  | .primary names => names
  | .foreign _ => []

def foreign? : TableKey → Option ForeignKey
  | .primary _ => none
  | .foreign key => some key

theorem read_layout {k : TableKey} (h : k ≠ .primary []) (rest : List Mark) :
    read (k.layout.marks ++ rest) = some (k, rest) := by
  cases k with
  | primary names =>
    have hnames : names ≠ [] := fun hnil => h (congrArg primary hnil)
    have hread := before_manyAll (p := readName) (g := fun n => [.name n]) (fun _ _ => rfl) hnames
      rest
    rw [layout]
    simp only [Layout.marks_cons, Layout.marks_append, Layout.marks_nil, Piece.marks.eq_1,
      List.append_assoc, List.nil_append]
    simp only [read, skip?_marks, hread]
    rfl
  | foreign key =>
    have hprimary : skip? "PRIMARY KEY (" (key.layout.marks ++ rest) = none :=
      skip?_clash (t := "FOREIGN KEY (") (by decide) _
    rw [layout, read, hprimary, key.read_layout]
    rfl

end TableKey

namespace CreateTable

/-- The keys in order. A primary key without columns is left out. -/
def keys (q : CreateTable) : List TableKey :=
  (if primaryNames q.columns = [] then [] else [.primary (primaryNames q.columns)]) ++
    q.foreignKeys.map .foreign

theorem layout_keys (q : CreateTable) :
    q.keys.map TableKey.layout =
      primaryKeyLayouts q.columns ++ q.foreignKeys.map ForeignKey.layout := by
  rw [keys, List.map_append, List.map_map, primaryNames, primaryKeyLayouts]
  cases q.columns.filter Column.primaryKey <;> rfl

theorem keys_ne (q : CreateTable) : ∀ k ∈ q.keys, k ≠ .primary [] := by
  rintro k hk rfl
  rw [keys, List.mem_append] at hk
  rcases hk with hk | hk
  · split at hk
    · cases hk
    · rename_i hne
      exact hne (TableKey.primary.inj (List.mem_singleton.1 hk)).symm
  · obtain ⟨key, -, hkey⟩ := List.mem_map.1 hk
    cases hkey

theorem foreign_keys (q : CreateTable) : q.keys.filterMap TableKey.foreign? = q.foreignKeys := by
  have hforeign : (q.foreignKeys.map TableKey.foreign).filterMap TableKey.foreign? =
      q.foreignKeys := by
    rw [List.filterMap_map]
    exact List.filterMap_some
  rw [keys, List.filterMap_append, hforeign]
  split <;> rfl

theorem names_keys (q : CreateTable) : q.keys.flatMap TableKey.names = primaryNames q.columns := by
  have hforeign : (q.foreignKeys.map TableKey.foreign).flatMap TableKey.names = [] := by
    rw [List.flatMap_map]
    exact List.flatMap_eq_nil_iff.2 fun _ _ => rfl
  rw [keys, List.flatMap_append, hforeign, List.append_nil]
  split
  · rename_i hnone
    exact hnone.symm
  · exact List.flatMap_singleton ..

/-! ## Tables -/

/-- A table as its definition says it, with each column in its normal form. -/
def normal (q : CreateTable) : CreateTable := { q with columns := q.columns.map Column.normal }

/-- The table with these parts: the primary key says which columns belong to it. -/
def ofParts (t : Target) (columns : List Column) (keys : List TableKey) : CreateTable :=
  { table := some t.table
    schema := t.schema
    columns := columns.map fun c =>
      { c with primaryKey := decide (c.name ∈ keys.flatMap TableKey.names) }
    foreignKeys := keys.filterMap TableKey.foreign? }

def read : MarkReader CreateTable := fun ms => do
  let (t, ms) ← before Target.read " (" (← skip? "CREATE TABLE " ms)
  let (columns, ms) ← manyAll "," Column.read ms
  let (keys, ms) ← before (optional " , " (manyAll "," TableKey.read) []) ")" ms
  return (ofParts t columns keys, ms)

/-- What can be read back: the columns have different names, and no default is raw SQL or has a
fraction. -/
structure IsReadable (q : CreateTable) : Prop where
  names : (q.columns.map Column.name).Nodup
  raws : q.columns.flatMap Column.raws = []
  floats : q.columns.any Column.hasFloat = false

/-- Names that differ tell which columns are marked for the primary key. -/
theorem name_mem_primaryNames {columns : List Column} (h : (columns.map Column.name).Nodup)
    {c : Column} (hc : c ∈ columns) : c.name ∈ primaryNames columns ↔ c.primaryKey = true := by
  constructor
  · intro hname
    obtain ⟨d, hd, hsame⟩ := List.mem_map.1 hname
    obtain ⟨hd, hprimary⟩ := List.mem_filter.1 hd
    rw [← List.inj_on_of_nodup_map h hd hc hsame]
    exact hprimary
  · exact fun hprimary => List.mem_map_of_mem (List.mem_filter.2 ⟨hc, hprimary⟩)

theorem ofParts_normal {q : CreateTable} (h : q.IsReadable) {t : Target}
    (htable : q.table = some t.table) (hschema : q.schema = t.schema) :
    ofParts t (q.columns.map fun c => { c.normal with primaryKey := false }) q.keys = q.normal := by
  have hcolumns : (q.columns.map fun c => { c.normal with primaryKey := false }).map
      (fun c => { c with primaryKey := decide (c.name ∈ primaryNames q.columns) }) =
        q.columns.map Column.normal := by
    rw [List.map_map]
    refine List.map_congr_left fun c hc => ?_
    have hprimary : decide (c.name ∈ primaryNames q.columns) = c.primaryKey :=
      Bool.eq_iff_iff.2 (decide_eq_true_iff.trans (name_mem_primaryNames h.names hc))
    have hnormal : c.normal = { c.normal with primaryKey := c.primaryKey } := rfl
    rw [hnormal, ← hprimary]
    rfl
  rw [ofParts, names_keys, foreign_keys, hcolumns, normal, htable, hschema]

theorem intercalate_keys_ne_nil (k : TableKey) (ks : List TableKey) :
    List.intercalate [.words ","] ((k :: ks).map TableKey.layout) ≠ [] := by
  rw [List.map_cons, intercalate_cons]
  cases k <;> exact List.cons_ne_nil _ _

theorem bodyLayout_eq (q : CreateTable) :
    bodyLayout q.columns q.foreignKeys =
      List.intercalate [.words ","] (q.columns.map Column.layout) ++
        headed " , " (List.intercalate [.words ","] (q.keys.map TableKey.layout)) := by
  rw [bodyLayout, ← layout_keys]
  cases q.keys with
  | nil => rfl
  | cons k ks =>
    rw [headed_of_ne_nil (intercalate_keys_ne_nil k ks)]
    rfl

theorem takes_columns {q : CreateTable} (hcheck : q.check = .ok ()) (h : q.IsReadable) :
    Takes [" , ", ")"] (manyAll "," Column.read)
      (List.intercalate [.words ","] (q.columns.map Column.layout))
      (q.columns.map fun c => { c.normal with primaryKey := false }) := by
  obtain ⟨-, hne, hchecks⟩ := check_eq_ok hcheck
  refine takes_manyAll "," (by decide) (fun c hc => ?_) hne
  exact Column.takes_layout (hchecks c hc) (List.flatMap_eq_nil_iff.1 h.raws c hc)
    (Bool.eq_false_iff.2 (List.any_eq_false.1 h.floats c hc))

/-- Behind the columns the keys begin, or the definition ends. -/
theorem takes_keys (q : CreateTable) :
    Takes [")"] (optional " , " (manyAll "," TableKey.read) [])
      (headed " , " (List.intercalate [.words ","] (q.keys.map TableKey.layout))) q.keys := by
  intro rest hrest
  have hseparator : excludes [")"] "," = true := by decide
  have hread := takes_manyAll "," (p := TableKey.read) (f := id) (g := TableKey.layout) hseparator
    (fun k hk ms _ => TableKey.read_layout (q.keys_ne k hk) ms)
  rw [List.map_id] at hread
  cases hkeys : q.keys with
  | nil => exact optional_missing (hrest.skip?_eq_none (by decide))
  | cons k ks =>
    rw [hkeys] at hread
    rw [headed_of_ne_nil (intercalate_keys_ne_nil k ks), Layout.marks_cons, Piece.marks.eq_1,
      List.append_assoc]
    exact optional_marks (hread (List.cons_ne_nil k ks) rest hrest)

/-- A table is read back in its normal form. -/
theorem read_layout {q : CreateTable} (hcheck : q.check = .ok ()) (h : q.IsReadable)
    (rest : List Mark) : read (q.layout.marks ++ rest) = some (q.normal, rest) := by
  have hclosing : Ends [")"] (Text.marks ")" ++ rest) := ends_marks (List.mem_singleton_self _) _
  have hkeys := before_eq (q.takes_keys _ hclosing)
  have hcolumns := takes_columns hcheck h _ (hclosing.headed " , "
    (List.intercalate [.words ","] (q.keys.map TableKey.layout)))
  have htarget := fun ms => before_eq (Target.read_layout ⟨q.table.getD "", q.schema, none⟩
    (skip?_clash (s := ".") (t := " (") (by decide) ms) (skip?_clash (by decide) ms))
  have hlayout (t : Target) (ht : t.tableAlias = none) : t.nameLayout = t.layout := by
    rw [Target.layout, ht]
    rfl
  have hparts := ofParts_normal h (t := ⟨q.table.getD "", q.schema, none⟩) ?_ rfl
  · rw [layout, bodyLayout_eq, hlayout _ rfl]
    simp only [Layout.marks_cons, Layout.marks_append, Layout.marks_nil, Piece.marks.eq_1,
      List.append_assoc, List.nil_append]
    simp only [read, skip?_marks, htarget, hcolumns, hkeys, hparts, Option.bind_eq_bind,
      Option.bind_some]
    rfl
  · obtain ⟨table, htable⟩ := Option.isSome_iff_exists.1 (check_eq_ok hcheck).1
    rw [htable]
    rfl

theorem layout_normal (q : CreateTable) : q.normal.layout = q.layout := by
  have hbody := bodyLayout_map Column.layout_normal (fun _ => rfl) (fun _ => rfl) q.columns
    q.foreignKeys
  rw [layout, layout, normal, hbody]

/-- Two tables have the same definition exactly if they have the same normal form: the arguments
that their types take, no members but those of sets and enumerations, nothing that is blank, and
trimmed defaults. -/
theorem text_eq_iff_normal_eq {p q : CreateTable} (hpReadable : p.IsReadable)
    (hqReadable : q.IsReadable) {f g : Fragment} (hp : p.sql .mysql = .ok f)
    (hq : q.sql .mysql = .ok g) : f.text = g.text ↔ p.normal = q.normal := by
  have hpCheck := ((Query.sql_eq_ok_iff (q := .createTable p) Dialect.visible_mysql).1 hp).1
  have hqCheck := ((Query.sql_eq_ok_iff (q := .createTable q) Dialect.visible_mysql).1 hq).1
  obtain ⟨rfl, hpBindings⟩ := Definition.eq_write_of_sql (x := .table p) hp
  obtain ⟨rfl, hqBindings⟩ := Definition.eq_write_of_sql (x := .table q) hq
  have hpPhrase : Phrase (fun _ => False) p.layout := phrase_layout (by simp [hpReadable.raws])
  have hqPhrase : Phrase (fun _ => False) q.layout := phrase_layout (by simp [hqReadable.raws])
  have hmarks : p.layout.marks = q.layout.marks ↔ p.normal = q.normal := by
    constructor
    · intro h
      have hpRead := read_layout hpCheck hpReadable []
      rw [h, read_layout hqCheck hqReadable] at hpRead
      exact (congrArg Prod.fst (Option.some.inj hpRead)).symm
    · intro h
      rw [← p.layout_normal, h, q.layout_normal]
  -- Neither definition binds a value, so the texts are all there is.
  have htexts : write .mysql p.layout = write .mysql q.layout ↔
      (write .mysql p.layout).text = (write .mysql q.layout).text :=
    Fragment.ext_iff.trans (and_iff_left (hpBindings.trans hqBindings.symm))
  rw [← hmarks, hpPhrase.marks_eq_iff hqPhrase]
  exact htexts.symm

/-- Orders with much that a definition does not show, and with texts that look like its parts. -/
def wordyOrders : CreateTable :=
  { CreateTable.ofTable "orders" with
    schema := some "shop\x60"
    columns :=
      [{ Column.ofType "id,\x60" .string with
          args := [0, 7]
          members := ["unused"]
          primaryKey := true
          charset := some " " },
        { Column.ofType "net" .decimal with args := [12], default := some (.int (-3)) },
        { Column.ofType "state" .enumeration with
          args := [4]
          members := ["new','old", "\x60) , PRIMARY KEY (\x60net\x60"]
          default := some (.text "  it's\n")
          comment := some "" },
        { Column.ofType "buyer" .bigint with
          args := [20]
          default := some (.text " \t")
          comment := some "' DEFAULT 1, 'x" }]
    foreignKeys := [⟨"buyer", "users", "id", .setNull, .cascade⟩] }

/-- The same orders in other words. -/
def plainOrders : CreateTable :=
  { CreateTable.ofTable "orders" with
    schema := some "shop\x60"
    columns :=
      [{ Column.ofType "id,\x60" .string with primaryKey := true },
        { Column.decimal "net" 12 2 with default := some (.int (-3)) },
        { Column.enumeration "state" ["new','old", "\x60) , PRIMARY KEY (\x60net\x60"] with
          default := some (.text "it's") },
        { Column.ofType "buyer" .bigint with comment := some "' DEFAULT 1, 'x" }]
    foreignKeys := [⟨"buyer", "users", "id", .setNull, .cascade⟩] }

theorem text_eq_iff_normal_eq_orders :
    wordyOrders ≠ plainOrders ∧ wordyOrders.IsReadable ∧ plainOrders.IsReadable ∧
      ∃ f g, wordyOrders.sql .mysql = .ok f ∧ plainOrders.sql .mysql = .ok g ∧
        f.text = g.text := by
  have hne : wordyOrders ≠ plainOrders := fun h =>
    absurd (congrArg (fun q => q.columns.map Column.args) h) (by decide)
  have hwordy : wordyOrders.IsReadable := ⟨by decide, rfl, rfl⟩
  have hplain : plainOrders.IsReadable := ⟨by decide, rfl, rfl⟩
  have hp : wordyOrders.sql .mysql = .ok (wordyOrders.layout.write .mysql) :=
    (Query.sql_eq_ok_iff (q := .createTable wordyOrders) Dialect.visible_mysql).2 ⟨rfl, rfl⟩
  have hq : plainOrders.sql .mysql = .ok (plainOrders.layout.write .mysql) :=
    (Query.sql_eq_ok_iff (q := .createTable plainOrders) Dialect.visible_mysql).2 ⟨rfl, rfl⟩
  refine ⟨hne, hwordy, hplain, _, _, hp, hq, ?_⟩
  exact (text_eq_iff_normal_eq hwordy hplain hp hq).2 rfl

/-- The normal form of a table, but with the arguments that are given beyond those of a type that
takes any. -/
def fullNormal (q : CreateTable) : CreateTable :=
  { q with
    columns := q.columns.map fun c =>
      { c.normal with
        args := c.shownArgs ++
          if c.type.fallbacks.isEmpty then [] else c.args.drop c.type.fallbacks.length } }

/-- A table of texts with these arguments. -/
def sizedTexts (args : List UInt32) : CreateTable :=
  { ofTable "t" with columns := [{ Column.ofType "a" .string with args }] }

/-- A text has one length, so a second argument is not written and cannot be read back. -/
theorem fullNormal_ne_sizedTexts :
    (sizedTexts [10]).IsReadable ∧ (sizedTexts [10, 99]).IsReadable ∧
      (sizedTexts [10]).sql .mysql =
        .ok (.ofText "CREATE TABLE \x60t\x60 (\x60a\x60 VARCHAR(10))") ∧
      (sizedTexts [10, 99]).sql .mysql =
        .ok (.ofText "CREATE TABLE \x60t\x60 (\x60a\x60 VARCHAR(10))") ∧
      (sizedTexts [10]).fullNormal ≠ (sizedTexts [10, 99]).fullNormal := by
  refine ⟨⟨by decide, rfl, rfl⟩, ⟨by decide, rfl, rfl⟩, ?_, ?_, fun h => ?_⟩
  · exact (Query.sql_eq_ok_iff (q := .createTable (sizedTexts [10])) Dialect.visible_mysql).2
      ⟨rfl, Fragment.ext (by decide) rfl⟩
  · exact (Query.sql_eq_ok_iff (q := .createTable (sizedTexts [10, 99])) Dialect.visible_mysql).2
      ⟨rfl, Fragment.ext (by decide) rfl⟩
  · have hargs := congrArg (fun q => q.columns.map Column.args) h
    exact absurd hargs (by decide)

end CreateTable
end BoundSql
