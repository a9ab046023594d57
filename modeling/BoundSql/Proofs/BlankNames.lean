import BoundSql.Proofs.Defaults
import BoundSql.Proofs.Refusal
import BoundSql.Proofs.Tokens
import Mathlib.Logic.Basic

/-!
# Blank names

No table and no index is created under a blank name, and neither is a column of a table, whatever
quotes it. The columns of an index are counted but their names are not looked at. So between the
backticks of a created table every name has text, unless a raw default brings a blank one along, and
the blank names of a created index are those of its columns.
-/
namespace BoundSql

open Layout Text

/-! ## Names in texts -/

namespace Text

/-- What stood between backticks. -/
def Token.name? : Token → Option String
  | .identifier name => some name
  | _ => none

/-- The names between backticks, unless a quotation mark in the text is never closed. -/
def names? (text : String) : Option (List String) :=
  (tokens? text.toList).map (List.filterMap Token.name?)

theorem names_chars (cs : List Char) : (cs.map Token.char).filterMap Token.name? = [] := by
  rw [List.filterMap_map]
  exact List.filterMap_eq_nil_iff.2 fun _ _ => rfl

theorem names?_of_isBlank {text : String} (h : isBlank text = true) : names? text = some [] := by
  have hread := tokens?_words (words_of_isBlank h) []
  rw [List.append_nil, tokens?_nil, Option.map_some, List.append_nil] at hread
  rw [names?, hread, Option.map_some, names_chars]

end Text

/-- The names in raw SQL that can be read. -/
def RawSql.names (r : RawSql) : List String := (names? r.text).getD []

namespace Piece

/-- The tokens of a piece; those of raw SQL are read from its text. -/
def readTokens : Piece → List Token
  | .raw r => (tokens? r.text.toList).getD []
  | p => p.tokens

def names (p : Piece) : List String := p.readTokens.filterMap Token.name?

theorem names_words (s : String) : (Piece.words s).names = [] := names_chars s.toList

theorem names_raw (r : RawSql) : (Piece.raw r).names = r.names := by
  rw [names, readTokens, RawSql.names, names?]
  cases tokens? r.text.toList <;> rfl

theorem reads_readTokens {p : Piece}
    (hp : p.IsAtom fun r => (names? r.text).isSome = true) (rest : List Char)
    (hrest : Clear rest) :
    tokens? ((p.sql .mysql).text.toList ++ rest) =
      (tokens? rest).map (p.readTokens ++ ·) := by
  cases p with
  | raw r =>
    rw [IsAtom, names?, Option.isSome_map] at hp
    obtain ⟨ts, hts⟩ := Option.isSome_iff_exists.1 hp
    rw [readTokens, hts]
    exact tokens?_append hts hrest
  | words s => exact hp.elim
  | _ =>
    refine reads_atom ?_ rest hrest
    trivial

end Piece

/-- The names that are read in a phrase are those of its pieces. -/
theorem Phrase.names?_write {l : Layout} (h : Phrase (fun r => (names? r.text).isSome = true) l) :
    names? (write .mysql l).text = some (l.flatMap Piece.names) := by
  have hclear : Clear [] := by simp [Clear]
  have hread : tokens? l.chars = some (l.flatMap Piece.readTokens) := by
    have htokens := h.tokens?_chars_of (fun _ => rfl) (fun _ => Piece.reads_readTokens) hclear
    simpa [tokens?_nil] using htokens
  rw [names?, ← Layout.chars, hread, Option.map_some, List.filterMap_flatMap]
  rfl

theorem Layout.names_of_names (names : List String) :
    (names.map Piece.name).flatMap Piece.names = names := by
  rw [List.flatMap_map]
  exact List.flatMap_singleton' names

/-! ## Names in definitions -/

/-- The name of a column and those in its raw default. -/
def Column.names (c : Column) : List String := c.name :: c.defaultRaws.flatMap RawSql.names

/-- A raw default that is left out has no names. -/
theorem Column.names_written (rs : List RawSql) :
    ((rs.filterMap written?).map Piece.raw).flatMap Piece.names = rs.flatMap RawSql.names := by
  induction rs with
  | nil => rfl
  | cons r rest ih =>
    rw [List.filterMap_cons, List.flatMap_cons, ← ih, written?]
    cases hblank : isBlank r.text with
    | true =>
      rw [RawSql.names, names?_of_isBlank hblank]
      rfl
    | false => exact congrArg (· ++ _) (Piece.names_raw ⟨r.text, []⟩)

theorem Column.names_contents (c : Column) :
    (Piece.name c.name).names ++ c.contents.flatMap Piece.names = c.names := by
  rw [flatMap_contents fun _ => rfl, names_written]
  rfl

/-- A table or an index that is to be created. -/
inductive Creation where
  | table (q : CreateTable)
  | index (q : CreateIndex)

namespace Creation

def sql (d : Dialect) : Creation → Except Error Fragment
  | .table q => q.sql d
  | .index q => q.sql d

def tableName? : Creation → Option String
  | .table q => q.table
  | .index q => q.table

/-- The name of the table behind that of its schema. -/
def target : Creation → List String
  | .table q => q.schema.toList ++ q.table.toList
  | .index q => q.schema.toList ++ q.table.toList

/-- The raw defaults of the columns. -/
def defaultRaws : Creation → List RawSql
  | .table q => q.columns.flatMap Column.defaultRaws
  | .index _ => []

/-- All names in the order in which they are written. -/
def names : Creation → List String
  | .table q => (Creation.table q).target ++ q.columns.flatMap Column.names ++ q.keyNames
  | .index q => q.name :: ((Creation.index q).target ++ q.columns)

/-- The names that must not be blank. -/
def checkedNames : Creation → List String
  | .table q =>
    (Creation.table q).target ++ q.columns.map Column.name ++ q.foreignKeys.flatMap ForeignKey.names
  | .index q => q.name :: (Creation.index q).target

/-- The names that may be blank. -/
def indexedColumns : Creation → List String
  | .table _ => []
  | .index q => q.columns

/-- Beside those that are checked, only indexed columns and raw defaults have names: the primary
key repeats names of columns. -/
theorem mem_names {x : Creation} {n : String} :
    n ∈ x.names ↔
      n ∈ x.checkedNames ∨ n ∈ x.indexedColumns ∨ ∃ r ∈ x.defaultRaws, n ∈ r.names := by
  cases x with
  | table q =>
    have hprimary : n ∈ CreateTable.primaryNames q.columns → ∃ c ∈ q.columns, c.name = n := by
      rw [CreateTable.primaryNames, List.mem_map]
      rintro ⟨c, hc, hname⟩
      exact ⟨c, (List.mem_filter.1 hc).1, hname⟩
    simp only [names, checkedNames, indexedColumns, defaultRaws, CreateTable.keyNames,
      Column.names, List.mem_append, List.mem_flatMap, List.mem_map, List.mem_cons,
      List.not_mem_nil, false_or]
    constructor
    · rintro ((htarget | ⟨c, hc, hname | ⟨r, hr, hname⟩⟩) | hname | hforeign)
      · exact .inl (.inl (.inl htarget))
      · exact .inl (.inl (.inr ⟨c, hc, hname.symm⟩))
      · exact .inr ⟨r, ⟨c, hc, hr⟩, hname⟩
      · exact .inl (.inl (.inr (hprimary hname)))
      · exact .inl (.inr hforeign)
    · rintro (((htarget | ⟨c, hc, hname⟩) | hforeign) | ⟨r, ⟨c, hc, hr⟩, hname⟩)
      · exact .inl (.inl htarget)
      · exact .inl (.inr ⟨c, hc, .inl hname.symm⟩)
      · exact .inr (.inr hforeign)
      · exact .inl (.inr ⟨c, hc, .inr ⟨r, hr, hname⟩⟩)
  | index q =>
    simp [names, checkedNames, indexedColumns, defaultRaws, or_assoc]

end Creation

/-! ## Refusals -/

theorem Target.isRefused_iff {table schema : Option String} :
    IsRefused table schema none ↔
      table = none ∨ ∃ n ∈ schema.toList ++ table.toList, isBlank n = true := by
  cases table <;> cases schema <;> simp [IsRefused, or_comm]

/-- The type of the column has members, and there are none. -/
def Column.LacksMembers (c : Column) : Prop :=
  (c.type = .set ∨ c.type = .enumeration) ∧ c.members = []

theorem Column.exists_isBad_iff {columns : List Column} :
    (∃ c ∈ columns, c.IsBad) ↔
      (∃ n ∈ columns.map Column.name, isBlank n = true) ∨ ∃ c ∈ columns, c.LacksMembers := by
  simp only [IsBad, LacksMembers, and_or_left, exists_or, List.mem_map,
    exists_exists_and_eq_and]

theorem ForeignKey.exists_isBad_iff {keys : List ForeignKey} :
    (∃ k ∈ keys, k.IsBad) ↔ ∃ n ∈ keys.flatMap names, isBlank n = true := by
  have hbad : ∀ k : ForeignKey, k.IsBad ↔ ∃ n ∈ k.names, isBlank n = true := by
    simp [IsBad, names]
  simp only [hbad, List.mem_flatMap]
  constructor
  · rintro ⟨k, hk, n, hn, hblank⟩
    exact ⟨n, ⟨k, hk, hn⟩, hblank⟩
  · rintro ⟨n, ⟨k, hk, hn⟩, hblank⟩
    exact ⟨k, hk, n, hn, hblank⟩

namespace Creation

/-- There is no column, or one without its members. -/
def LacksColumns : Creation → Prop
  | .table q => q.columns = [] ∨ ∃ c ∈ q.columns, c.LacksMembers
  | .index q => q.columns = []

/-- Beside missing parts a blank name that is checked is the only cause to refuse. -/
theorem fails_sql_iff (x : Creation) (d : Dialect) :
    Fails (x.sql d) ↔
      (∃ n ∈ x.checkedNames, isBlank n = true) ∨ x.tableName? = none ∨ x.LacksColumns := by
  cases x with
  | table q =>
    rw [sql, CreateTable.fails_sql, CreateTable.IsRefused, Target.isRefused_iff,
      Column.exists_isBad_iff, ForeignKey.exists_isBad_iff]
    simp only [checkedNames, target, tableName?, LacksColumns, List.mem_append, or_and_right,
      exists_or, or_assoc, or_comm, or_left_comm]
  | index q =>
    rw [sql, CreateIndex.fails_sql, CreateIndex.IsRefused, Target.isRefused_iff]
    simp only [checkedNames, target, tableName?, LacksColumns, List.mem_cons, or_and_right,
      exists_or, exists_eq_left, or_assoc, or_comm, or_left_comm]

end Creation

/-- Every error of the computation is an invalid argument. -/
def ChecksArguments {α : Type} (x : Except Error α) : Prop :=
  ∀ e, x = .error e → e.kind = .invalidArgument

namespace ChecksArguments

variable {α β : Type} {x : Except Error α}

theorem ok (a : α) : ChecksArguments (.ok a) := by
  rintro e ⟨⟩

theorem error {e : Error} (he : e.kind = .invalidArgument) :
    ChecksArguments (.error e : Except Error α) := by
  rintro _ ⟨⟩
  exact he

theorem bind {f : α → Except Error β} (hx : ChecksArguments x)
    (hf : ∀ a, ChecksArguments (f a)) : ChecksArguments (x >>= f) := by
  cases x with
  | error e => exact .error (hx e rfl)
  | ok a => exact hf a

theorem ite {c : Prop} [Decidable c] {e : Error} (he : e.kind = .invalidArgument)
    (hx : ChecksArguments x) : ChecksArguments (if c then .error e else x) := by
  split
  · exact .error he
  · exact hx

theorem throw {c : Prop} [Decidable c] {e : Error} (he : e.kind = .invalidArgument)
    {f : PUnit → Except Error α} (hx : ChecksArguments x) :
    ChecksArguments (if c then throw e >>= f else x) :=
  ite he hx

theorem forM {f : β → Except Error Unit} (hf : ∀ b, ChecksArguments (f b)) (bs : List β) :
    ChecksArguments (bs.forM f) := by
  induction bs with
  | nil => exact .ok ()
  | cons b rest ih => exact .bind (hf b) fun _ => ih

end ChecksArguments

theorem Target.checksArguments_resolve (table : String) (schema tableAlias : Option String) :
    ChecksArguments (resolve (some table) schema tableAlias) :=
  .ite rfl (.ite rfl (.ite rfl (.ok _)))

namespace Creation

/-- A table that is not named is the only cause to refuse beside the arguments. -/
theorem checksArguments_sql {x : Creation} (h : x.tableName?.isSome = true) (d : Dialect) :
    ChecksArguments (x.sql d) := by
  obtain ⟨table, htable⟩ := Option.isSome_iff_exists.1 h
  cases x with
  | table q =>
    have htable : q.table = some table := htable
    have hcolumn : ∀ c : Column, ChecksArguments c.check := fun _ => .ite rfl (.ite rfl (.ok ()))
    have hforeign : ∀ k : ForeignKey, ChecksArguments k.check := fun _ => .ite rfl (.ok ())
    rw [sql, CreateTable.sql, htable]
    refine .bind (Target.checksArguments_resolve _ _ _) fun t => .throw rfl ?_
    refine .bind (.forM hcolumn _) fun _ => .bind (.forM hforeign _) fun _ => .ok _
  | index q =>
    have htable : q.table = some table := htable
    rw [sql, CreateIndex.sql, htable]
    refine .bind (Target.checksArguments_resolve _ _ _) fun t => ?_
    exact .throw rfl (.throw rfl (.ok _))

/-! ## Names in statements -/

theorem names?_sql {x : Creation} {f : Fragment} (h : x.sql .mysql = .ok f)
    (hraws : ∀ r ∈ x.defaultRaws, (names? r.text).isSome = true) :
    names? f.text = some x.names := by
  cases x with
  | table q =>
    obtain ⟨t, ht, -⟩ := Except.bind_eq_ok.1 h
    have htable := (Target.resolve_eq_ok_iff.1 ht).1
    obtain ⟨rfl, -⟩ := Definition.eq_write_of_sql (x := .table q) h
    have hphrase : Phrase (fun r => (names? r.text).isSome = true) (Definition.table q).layout :=
      Definition.phrase_of_texts (P := fun s => (names? s).isSome = true) hraws
    rw [hphrase.names?_write, Definition.layout, CreateTable.flatMap_layout Piece.names_words,
      names_of_names, names_of_names, htable]
    simp only [Column.names_contents, names, target, htable]
    rfl
  | index q =>
    obtain ⟨t, ht, -⟩ := Except.bind_eq_ok.1 h
    have htable := (Target.resolve_eq_ok_iff.1 ht).1
    obtain ⟨-, rfl⟩ :=
      (Query.sql_eq_ok_iff Dialect.visible_mysql (q := .createIndex q)).1 h
    rw [Query.layout, Phrase.names?_write q.phrase_layout,
      CreateIndex.flatMap_layout Piece.names_words, names_of_names, names, target, htable]
    simp

/-- Beside missing parts the only cause to refuse is a blank name among those that are checked, and
if the table is named at all, every cause is an argument. In what is written every name can be read
back, in order, if the raw defaults can be read; and some name is blank exactly if it is that of an
indexed column, or stands in a raw default. -/
theorem isBlank_names (x : Creation) :
    (∀ d, (∃ e, x.sql d = .error e) ↔
      (∃ n ∈ x.checkedNames, isBlank n = true) ∨ x.tableName? = none ∨ x.LacksColumns) ∧
      (∀ d e, x.sql d = .error e → x.tableName?.isSome = true → e.kind = .invalidArgument) ∧
      ∀ f, x.sql .mysql = .ok f →
        ((∀ r ∈ x.defaultRaws, (names? r.text).isSome = true) → names? f.text = some x.names) ∧
          ((∃ n ∈ x.names, isBlank n = true) ↔ (∃ n ∈ x.indexedColumns, isBlank n = true) ∨
            ∃ r ∈ x.defaultRaws, ∃ n ∈ r.names, isBlank n = true) := by
  refine ⟨x.fails_sql_iff, fun d e he h => checksArguments_sql h d e he,
    fun f hf => ⟨names?_sql hf, ?_⟩⟩
  have hchecked : ∀ n ∈ x.checkedNames, isBlank n ≠ true := by
    intro n hn hblank
    obtain ⟨e, he⟩ := (x.fails_sql_iff .mysql).2 (.inl ⟨n, hn, hblank⟩)
    rw [hf] at he
    cases he
  constructor
  · rintro ⟨n, hn, hblank⟩
    rcases mem_names.1 hn with hname | hindexed | ⟨r, hr, hname⟩
    · exact absurd hblank (hchecked n hname)
    · exact .inl ⟨n, hindexed, hblank⟩
    · exact .inr ⟨r, hr, n, hname, hblank⟩
  · rintro (⟨n, hindexed, hblank⟩ | ⟨r, hr, n, hname, hblank⟩)
    · exact ⟨n, mem_names.2 (.inr (.inl hindexed)), hblank⟩
    · exact ⟨n, mem_names.2 (.inr (.inr ⟨r, hr, hname⟩)), hblank⟩

/-- Names around white space, one that only looks blank, and one in a raw default. -/
def visits : CreateTable :=
  { CreateTable.ofTable "visits" with
    schema := some " shop"
    columns :=
      [{ Column.ofType "\x60 \x60" .int with
          primaryKey := true
          default := some (.raw ⟨"NEXT VALUE FOR \x60seq\x60", []⟩) },
        Column.ofType "\u200b" .bigint]
    foreignKeys := [⟨"\u200b", "users", " id", .cascade, .noAction⟩] }

theorem isBlank_names_visits :
    (∃ f, (table visits).sql .mysql = .ok f ∧
      names? f.text = some [" shop", "visits", "\x60 \x60", "seq", "\u200b", "\x60 \x60",
        "\u200b", "users", " id"] ∧
      ¬ ∃ n ∈ (table visits).names, isBlank n = true) ∧
      ∃ e, (table { visits with schema := some "\u3000" }).sql .mysql = .error e ∧
        e.kind = .invalidArgument := by
  have hraws : ∀ r ∈ (table visits).defaultRaws, (names? r.text).isSome = true := by
    decide +kernel
  have hnames : (table visits).names = [" shop", "visits", "\x60 \x60", "seq", "\u200b",
      "\x60 \x60", "\u200b", "users", " id"] := by decide +kernel
  obtain ⟨f, hf⟩ : ∃ f, (table visits).sql .mysql = .ok f := ⟨_, rfl⟩
  obtain ⟨hread, hblank⟩ := (isBlank_names (table visits)).2.2 f hf
  obtain ⟨hrefused, hkind, -⟩ := isBlank_names (table { visits with schema := some "\u3000" })
  obtain ⟨e, he⟩ := (hrefused .mysql).2 (.inl ⟨"\u3000", by decide, by decide⟩)
  refine ⟨⟨f, hf, ?_, fun h => ?_⟩, e, he, hkind _ e he rfl⟩
  · rw [hread hraws, hnames]
  · rcases hblank.1 h with ⟨n, hn, -⟩ | hraw
    · cases hn
    · revert hraw
      decide +kernel

/-- An index over a column without a name. -/
def hollowIndex : CreateIndex := { CreateIndex.ofTable "t" with name := "i", columns := [""] }

/-- It is created with nothing between two backticks. -/
theorem names?_hollowIndex :
    CreateIndex.sql .mysql hollowIndex =
        .ok ⟨"CREATE INDEX \x60i\x60 ON \x60t\x60 (\x60\x60)", []⟩ ∧
      names? "CREATE INDEX \x60i\x60 ON \x60t\x60 (\x60\x60)" = some ["i", "t", ""] ∧
      isBlank "" = true := by
  have hsql : CreateIndex.sql .mysql hollowIndex =
      .ok ⟨"CREATE INDEX \x60i\x60 ON \x60t\x60 (\x60\x60)", []⟩ :=
    (Query.sql_eq_ok_iff Dialect.visible_mysql (q := .createIndex hollowIndex)).2
      ⟨rfl, Fragment.ext (by decide) rfl⟩
  exact ⟨hsql, names?_sql (x := .index hollowIndex) hsql (by simp [defaultRaws]), rfl⟩

end Creation
end BoundSql
