import BoundSql.Proofs.Layout.Contents
import BoundSql.Proofs.Placeholders

/-!
# Raw defaults

A definition is written without values, and a raw default keeps its text alone. So the placeholders
of a definition are those of its raw defaults, one after the other: the values that the raw defaults
bring along would fill them exactly, but the definition has lost them.
-/
namespace BoundSql

open Layout Text

namespace Column

/-- Raw SQL that the column has as its default, with its values. -/
def defaultRaws (c : Column) : List RawSql :=
  match c.default with
  | some (.raw r) => [r]
  | _ => []

end Column

/-- What can be defined: a column on its own or a table. -/
inductive Definition where
  | column (c : Column)
  | table (q : CreateTable)

namespace Definition

def sql (d : Dialect) : Definition → Except Error Fragment
  | .column c => c.sql d
  | .table q => q.sql d

def columns : Definition → List Column
  | .column c => [c]
  | .table q => q.columns

/-- All raw defaults in the order of the columns. -/
def defaultRaws (x : Definition) : List RawSql := x.columns.flatMap Column.defaultRaws

/-- Their values, in the form a driver receives. -/
def defaultValues (x : Definition) : List Value := x.defaultRaws.flatMap fun r => r.sql.bindings

def layout : Definition → Layout
  | .column c => c.layout
  | .table q => q.layout

/-- A definition has the contents of its columns. -/
theorem flatMap_layout {α : Type} {g : Piece → List α} (hg : Piece.Collects g) (x : Definition) :
    x.layout.flatMap g = x.columns.flatMap fun c => c.contents.flatMap g := by
  cases x with
  | column c =>
    have hcolumn : c.layout.flatMap g = c.contents.flatMap g := by
      rw [Column.flatMap_layout hg.words, hg.name, List.nil_append]
    exact hcolumn.trans (List.flatMap_singleton ..).symm
  | table q =>
    rw [layout, CreateTable.flatMap_layout hg.words, flatMap_names hg, flatMap_names hg]
    simp only [hg.name, List.nil_append, List.append_nil]
    rfl

/-- A definition is its layout, and it binds nothing. -/
theorem eq_write_of_sql {x : Definition} {f : Fragment} (h : x.sql .mysql = .ok f) :
    f = write .mysql x.layout ∧ f.bindings = [] := by
  cases x with
  | column c =>
    obtain ⟨⟨⟩, -, hf⟩ := Except.bind_eq_ok.1 h
    obtain rfl := Except.ok.inj hf
    exact ⟨c.text_eq .mysql, rfl⟩
  | table q =>
    refine ⟨((Query.sql_eq_ok_iff Dialect.visible_mysql (q := .createTable q)).1 h).2, ?_⟩
    obtain ⟨t, -, hrest⟩ := Except.bind_eq_ok.1 h
    obtain ⟨-, hrest⟩ := Except.guard_eq_ok.1 hrest
    obtain ⟨⟨⟩, -, hrest⟩ := Except.bind_eq_ok.1 hrest
    obtain ⟨⟨⟩, -, hf⟩ := Except.bind_eq_ok.1 hrest
    obtain rfl := Except.ok.inj hf
    rfl

end Definition

/-! ## Placeholders of pieces -/

/-- The raw SQL of a piece. -/
def Piece.rawSql : Piece → List RawSql
  | .raw r => [r]
  | _ => []

namespace Layout

/-- The raw SQL of a layout in order. -/
def rawSql (l : Layout) : List RawSql := l.flatMap Piece.rawSql

theorem rawSql_cons (p : Piece) (l : Layout) : rawSql (p :: l) = p.rawSql ++ rawSql l := rfl

/-- The placeholders of raw SQL. -/
def owed : List RawSql → Nat
  | [] => 0
  | r :: rest => placeholders none r.text.toList + owed rest

theorem owed_append (rs ss : List RawSql) : owed (rs ++ ss) = owed rs + owed ss := by
  induction rs with
  | nil => exact (Nat.zero_add _).symm
  | cons r rest ih => rw [List.cons_append, owed, owed, ih, Nat.add_assoc]

/-- A layout without values has the placeholders of its raw SQL and no others. -/
theorem quiet_write {l : Layout} (hl : Phrase (fun r => openMark none r.text.toList = none) l)
    (hbindings : (write .mysql l).bindings = []) :
    openMark none (write .mysql l).text.toList = none ∧
      placeholders none (write .mysql l).text.toList = owed l.rawSql := by
  have hpieces : ∀ p ∈ l, (p.sql .mysql).bindings = [] →
      openMark none (p.sql .mysql).text.toList = none ∧
        placeholders none (p.sql .mysql).text.toList = owed p.rawSql := by
    have hbalanced : ∀ p : Piece, p.rawSql = [] → (p.sql .mysql).IsBalanced →
        (p.sql .mysql).bindings = [] → openMark none (p.sql .mysql).text.toList = none ∧
          placeholders none (p.sql .mysql).text.toList = owed p.rawSql := by
      intro p hraws h hnone
      rw [h.count, hnone, hraws]
      exact ⟨h.closed, rfl⟩
    refine hl.forall_mem (fun p hp => ?_) fun _ s hs => ?_
    · cases p with
      | raw r => exact fun _ => ⟨hp, by simp [owed, Piece.rawSql, Piece.sql, RawSql.sql]⟩
      | words s => exact hp.elim
      | _ => exact hbalanced _ rfl (Piece.isBalanced_atom trivial)
    · exact hbalanced _ rfl (Fragment.isBalanced_words hs)
  clear hl
  induction l with
  | nil => exact ⟨rfl, rfl⟩
  | cons p l ih =>
    rw [write_cons, Fragment.bindings_append, List.append_eq_nil_iff] at hbindings
    obtain ⟨hopen, hcount⟩ := hpieces p (List.mem_cons_self ..) hbindings.1
    obtain ⟨hopens, hcounts⟩ := ih hbindings.2 fun q hq => hpieces q (List.mem_cons_of_mem p hq)
    rw [write_cons, Fragment.text_append, String.toList_append, openMark_append,
      placeholders_append, hopen, hcount, hcounts, rawSql_cons, owed_append]
    exact ⟨hopens, rfl⟩

end Layout

/-! ## Raw SQL of definitions -/

/-- White space has neither marks nor placeholders. -/
theorem words_of_isBlank {s : String} (h : isBlank s = true) :
    ∀ c ∈ s.toList, (!isMark c && c != '?') = true := by
  intro c hc
  have hspace : (['\x60', '\x27', '?'].all fun d => !isSpace d) = true := by decide
  have hc := List.all_eq_true.1 h c hc
  have hne : ∀ d ∈ ['\x60', '\x27', '?'], c ≠ d := by
    rintro d hd rfl
    have hd := List.all_eq_true.1 hspace c hd
    rw [hc] at hd
    cases hd
  simp [isMark, hne '\x60' (by simp), hne '\x27' (by simp), hne '?' (by simp)]

namespace Column

/-- What is written of a raw default: its text alone, unless it is blank. -/
def written? (r : RawSql) : Option RawSql :=
  if isBlank r.text then none else some ⟨r.text, []⟩

/-- The placeholders that are written are as many as the values that are not bound. -/
theorem owed_written {rs : List RawSql} (h : ∀ r ∈ rs, r.sql.IsBalanced) :
    owed (rs.filterMap written?) = (rs.flatMap fun r => r.sql.bindings).length := by
  induction rs with
  | nil => rfl
  | cons r rest ih =>
    have hcount : placeholders none r.text.toList = r.sql.bindings.length :=
      (h r (List.mem_cons_self ..)).count
    have hrest := ih fun s hs => h s (List.mem_cons_of_mem r hs)
    rw [List.flatMap_cons, List.length_append, ← hrest, ← hcount, List.filterMap_cons, written?]
    cases hblank : isBlank r.text with
    | true => simp [(quiet_of_words (words_of_isBlank hblank)).2]
    | false => rfl

/-- Whatever is collected without the literals of a column is collected from its raw default. -/
theorem flatMap_contents {α : Type} {g : Piece → List α} (hliteral : ∀ s, g (.literal s) = [])
    (c : Column) :
    c.contents.flatMap g = ((c.defaultRaws.filterMap written?).map .raw).flatMap g := by
  have hliterals : ∀ texts : List String, (texts.map Piece.literal).flatMap g = [] := by
    intro texts
    rw [List.flatMap_map]
    exact List.flatMap_eq_nil_iff.2 fun s _ => hliteral s
  rw [contents, List.flatMap_append, List.flatMap_append, hliterals, hliterals, List.nil_append,
    List.append_nil, defaultRaws]
  cases c.default with
  | none => rfl
  | some v =>
    rw [Option.elim_some]
    cases v with
    | int n | float x => rfl
    | text t =>
      rw [ColumnDefault.contents]
      split
      · rfl
      · exact (List.flatMap_singleton ..).trans (hliteral _)
    | raw r =>
      rw [ColumnDefault.contents, List.filterMap_cons, List.filterMap_nil, written?]
      cases isBlank r.text <;> rfl

/-- A raw default is the only raw SQL of a column, and a blank one is left out. -/
theorem rawSql_contents (c : Column) :
    c.contents.flatMap Piece.rawSql = c.defaultRaws.filterMap written? := by
  rw [flatMap_contents fun _ => rfl, List.flatMap_map]
  exact List.flatMap_singleton' _

/-- Raw SQL in a layout has the text of a raw default. -/
theorem exists_defaultRaws {c : Column} {r : RawSql} (h : r ∈ c.raws) :
    ∃ s ∈ c.defaultRaws, r.text = s.text := by
  have hraws : c.raws = c.defaultRaws.map fun s => ⟨s.text, []⟩ := by
    rw [raws, defaultRaws]
    cases c.default with
    | none => rfl
    | some v => cases v <;> rfl
  rw [hraws] at h
  obtain ⟨s, hs, rfl⟩ := List.mem_map.1 h
  exact ⟨s, hs, rfl⟩

end Column

namespace Definition

/-- Raw defaults with text are all the raw SQL of a definition, each without its values. -/
theorem rawSql_layout (x : Definition) :
    x.layout.rawSql = x.defaultRaws.filterMap Column.written? := by
  have hcollects : Piece.Collects Piece.rawSql := ⟨fun _ => rfl, fun _ => rfl⟩
  have hcolumns : x.layout.rawSql = x.columns.flatMap fun c => c.contents.flatMap Piece.rawSql :=
    x.flatMap_layout hcollects
  rw [hcolumns, defaultRaws, List.filterMap_flatMap]
  exact congrArg x.columns.flatMap (funext Column.rawSql_contents)

/-- A definition is a phrase, and what its raw SQL has is known from the raw defaults. -/
theorem phrase_of_texts {P : String → Prop} {x : Definition} (h : ∀ r ∈ x.defaultRaws, P r.text) :
    Phrase (fun r => P r.text) x.layout := by
  have hcolumns : ∀ c ∈ x.columns, ∀ r ∈ c.raws, P r.text := by
    intro c hc r hr
    obtain ⟨s, hs, htext⟩ := Column.exists_defaultRaws hr
    rw [htext]
    exact h s (List.mem_flatMap_of_mem hc hs)
  cases x with
  | column c => exact Column.phrase_layout (hcolumns c (List.mem_singleton_self c))
  | table q =>
    refine CreateTable.phrase_layout fun r hr => ?_
    obtain ⟨c, hc, hr⟩ := List.mem_flatMap.1 hr
    exact hcolumns c hc r hr

theorem phrase_layout {x : Definition} (h : ∀ r ∈ x.defaultRaws, r.sql.IsBalanced) :
    Phrase (fun r => openMark none r.text.toList = none) x.layout :=
  phrase_of_texts (P := fun s => openMark none s.toList = none) fun r hr => (h r hr).closed

/-- A definition binds nothing, while its text has a placeholder for every value of its raw
defaults: with these values, in the order of the columns, it is balanced, and as it is only if there
are none. -/
theorem isBalanced_defaultValues {x : Definition} {f : Fragment}
    (hraws : ∀ r ∈ x.defaultRaws, r.sql.IsBalanced) (h : x.sql .mysql = .ok f) :
    f.bindings = [] ∧ (Fragment.mk f.text x.defaultValues).IsBalanced ∧
      (f.IsBalanced ↔ x.defaultValues = []) := by
  obtain ⟨rfl, hbindings⟩ := eq_write_of_sql h
  have howed : owed x.layout.rawSql = x.defaultValues.length := by
    rw [rawSql_layout]
    exact Column.owed_written hraws
  obtain ⟨hopen, hcount⟩ := quiet_write (phrase_layout hraws) hbindings
  rw [howed] at hcount
  refine ⟨hbindings, ⟨hopen, hcount⟩, fun hbalanced => ?_, fun hnone => ⟨hopen, ?_⟩⟩
  · rw [← List.length_eq_zero_iff, ← hcount, hbalanced.count, hbindings]
    rfl
  · rw [hcount, hnone, hbindings]

/-- Two raw defaults, among question marks in names, members and comments. -/
def prices : CreateTable :=
  { CreateTable.ofTable "prices?" with
    columns :=
      [{ Column.decimal "net\x60?" 8 2 with
          default := some (.raw ⟨"ROUND(?, ?)", [.int 1, .list [.int 2, .int 3]]⟩)
          comment := some "it's ?" },
        { Column.enumeration "unit" ["?", "'"] with default := some (.text "?") },
        { Column.ofType "since" .dateTime with
          default := some (.raw ⟨"IF('?' = ?, NOW(), NULL)", [.null]⟩) }] }

theorem isBalanced_defaultValues_prices :
    (∀ r ∈ (Definition.table prices).defaultRaws, r.sql.IsBalanced) ∧
      ∃ f, (Definition.table prices).sql .mysql = .ok f ∧ f.bindings = [] ∧
        (Fragment.mk f.text [.int 1, .string "2,3", .null]).IsBalanced ∧ ¬ f.IsBalanced := by
  have hraws : ∀ r ∈ (Definition.table prices).defaultRaws, r.sql.IsBalanced := by
    intro r hr
    have hdefaults : (Definition.table prices).defaultRaws =
        [⟨"ROUND(?, ?)", [.int 1, .list [.int 2, .int 3]]⟩,
          ⟨"IF('?' = ?, NOW(), NULL)", [.null]⟩] := rfl
    rw [hdefaults] at hr
    rcases List.mem_cons.1 hr with rfl | hr
    · exact ⟨by decide, by decide⟩
    · obtain rfl := List.mem_singleton.1 hr
      exact ⟨by decide, by decide⟩
  have hsql : (Definition.table prices).sql .mysql = .ok (prices.layout.write .mysql) :=
    (Query.sql_eq_ok_iff Dialect.visible_mysql (q := .createTable prices)).2 ⟨rfl, rfl⟩
  obtain ⟨hbindings, hbalanced, hiff⟩ := isBalanced_defaultValues hraws hsql
  have hvalues : (Definition.table prices).defaultValues = [.int 1, .string "2,3", .null] := rfl
  rw [hvalues] at hbalanced hiff
  exact ⟨hraws, _, hsql, hbindings, hbalanced, fun h => absurd (hiff.1 h) (List.cons_ne_nil _ _)⟩

/-- A column whose default is a placeholder. -/
def boundColumn : Column :=
  { Column.ofType "a" .int with default := some (.raw ⟨"?", [.int 5]⟩) }

/-- Its raw default is balanced, and its definition has a placeholder without a binding, alone and
in a table. -/
theorem not_isBalanced_boundColumn :
    (∀ r ∈ boundColumn.defaultRaws, r.sql.IsBalanced) ∧
      boundColumn.sql .mysql = .ok ⟨"\x60a\x60 INT DEFAULT ?", []⟩ ∧
      ¬ (Fragment.mk "\x60a\x60 INT DEFAULT ?" []).IsBalanced ∧
      CreateTable.sql .mysql { CreateTable.ofTable "t" with columns := [boundColumn] } =
        .ok ⟨"CREATE TABLE \x60t\x60 (\x60a\x60 INT DEFAULT ?)", []⟩ ∧
      ¬ (Fragment.mk "CREATE TABLE \x60t\x60 (\x60a\x60 INT DEFAULT ?)" []).IsBalanced := by
  have hraws : ∀ r ∈ boundColumn.defaultRaws, r.sql.IsBalanced := by
    intro r hr
    obtain rfl : r = ⟨"?", [.int 5]⟩ := List.mem_singleton.1 hr
    exact ⟨by decide, by decide⟩
  have hcolumn : boundColumn.sql .mysql = .ok ⟨"\x60a\x60 INT DEFAULT ?", []⟩ := by
    rw [Column.sql, Fragment.ofText]
    have htext : boundColumn.text .mysql = "\x60a\x60 INT DEFAULT ?" := by decide
    rw [htext]
    rfl
  have htable : CreateTable.sql .mysql { CreateTable.ofTable "t" with columns := [boundColumn] } =
      .ok ⟨"CREATE TABLE \x60t\x60 (\x60a\x60 INT DEFAULT ?)", []⟩ :=
    (Query.sql_eq_ok_iff Dialect.visible_mysql (q := .createTable _)).2
      ⟨rfl, Fragment.ext (by decide) rfl⟩
  exact ⟨hraws, hcolumn, fun h => absurd h.count (by decide), htable,
    fun h => absurd h.count (by decide)⟩

end Definition
end BoundSql
