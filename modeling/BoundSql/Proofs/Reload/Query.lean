import BoundSql.Proofs.Reload.Document
import BoundSql.Proofs.Reload.Exact
import BoundSql.Proofs.Reload.Statement

/-!
# Round trips

A statement that is written as a document and read back compiles to the same text or is refused
with the same message. What it binds differs only where the caller supplied an unsigned integer.
-/
namespace BoundSql

open Layout

section
variable {f : Value → Value} (hf : Value.IsUnseen f)

/-! ## Changes -/

namespace Update

include hf in
theorem check_mapValues (q : Update) :
    (q.mapValues f).check = q.check.mapError (Error.mapValues f) := by
  obtain ⟨table, schema, tableAlias, assignments, filter⟩ := q
  rw [mapValues, check, check, Filter.check_mapValues hf, Except.mapError_bind,
    Target.resolve_mapError]
  cases Target.resolve table schema tableAlias with
  | error e => rfl
  | ok t => cases assignments <;> rfl

include hf in
theorem layout_mapValues (q : Update) : (q.mapValues f).layout = q.layout.mapValues f := by
  obtain ⟨table, schema, tableAlias, assignments, filter⟩ := q
  have hset : joined "," ((assignments.map fun a => (a.1, f a.2)).map assignmentLayout) =
      (joined "," (assignments.map assignmentLayout)).mapValues f := by
    rw [← joined_mapValues, List.map_map, List.map_map]
    rfl
  simp only [mapValues, layout, hset, Filter.layout_mapValues hf, headed_mapValues,
    mapValues_cons, mapValues_append, Target.layout_mapValues]
  rfl

end Update

namespace Delete

include hf in
theorem check_mapValues (q : Delete) :
    (q.mapValues f).check = q.check.mapError (Error.mapValues f) := by
  obtain ⟨table, schema, tableAlias, filter, limits, truncate⟩ := q
  rw [mapValues, check, check, Filter.check_mapValues hf, Except.mapError_bind,
    Target.resolve_mapError]
  cases Target.resolve table schema tableAlias with
  | error e => rfl
  | ok t => cases truncate <;> rfl

include hf in
theorem layout_mapValues (q : Delete) : (q.mapValues f).layout = q.layout.mapValues f := by
  obtain ⟨table, schema, tableAlias, filter, limits, truncate⟩ := q
  cases truncate with
  | true =>
    simp only [mapValues, layout, if_true, mapValues_cons, Target.nameLayout_mapValues]
    rfl
  | false =>
    simp only [mapValues, layout, Bool.false_eq_true, if_false, Filter.layout_mapValues hf,
      headed_mapValues, mapValues_cons, mapValues_append, Target.layout_mapValues,
      Limits.limitLayout_mapValues]
    rfl

end Delete

namespace Insert

theorem columnNames_mapValues (f : Value → Value) (q : Insert) :
    (q.mapValues f).columnNames = q.columnNames := by
  simp [columnNames, mapValues, Row.mapValues, List.flatMap_map, Function.comp_def]

theorem cell_mapValues (f : Value → Value) (row : Row) (column : String) :
    (row.mapValues f).cell column = (row.cell column).mapValues f := by
  obtain ⟨fields⟩ := row
  rw [Row.cell, Row.cell, Row.mapValues]
  induction fields with
  | nil => rfl
  | cons field fields ih =>
    rw [List.map_cons, List.lookup_cons, List.lookup_cons]
    split
    · rfl
    · exact ih

theorem cellLayout_mapValues (f : Value → Value) (c : Cell) :
    (c.mapValues f).layout = c.layout.mapValues f := by
  cases c <;> rfl

theorem tupleLayout_mapValues (f : Value → Value) (columns : List String) (row : Row) :
    tupleLayout columns (row.mapValues f) = (tupleLayout columns row).mapValues f := by
  have hcells : (columns.map fun c => ((row.mapValues f).cell c).layout) =
      (columns.map fun c => (row.cell c).layout).map (Layout.mapValues f) := by
    rw [List.map_map]
    simp only [Function.comp_def, cell_mapValues, cellLayout_mapValues]
  rw [tupleLayout, tupleLayout, hcells, joined_mapValues]
  simp [Piece.mapValues]

theorem refreshCheck_mapValues (f : Value → Value) (columns : List String) (item : Refresh) :
    refreshCheck columns (item.mapValues f) =
      (refreshCheck columns item).mapError (Error.mapValues f) := by
  cases item with
  | column c =>
    rw [Refresh.mapValues, refreshCheck]
    split <;> rfl
  | raw sql => rfl

theorem refreshLayout_mapValues (f : Value → Value) (first : Row) (item : Refresh) :
    refreshLayout (first.mapValues f) (item.mapValues f) =
      (refreshLayout first item).mapValues f := by
  cases item with
  | column c =>
    simp [refreshLayout, Refresh.mapValues, cell_mapValues, cellLayout_mapValues, Piece.mapValues]
  | raw sql => rfl

theorem openingLayout_mapValues (f : Value → Value) (t : Target) (ignore : Bool)
    (columns : List String) :
    (openingLayout t ignore columns).mapValues f = openingLayout t ignore columns :=
  mapValues_of_unbound (d := .mysql) f
    (congrArg Fragment.bindings (opening_eq ⟨.mysql, none⟩ t ignore columns)).symm

theorem getD_mapValues (f : Value → Value) (onDuplicate : Option (List Refresh)) :
    (onDuplicate.map (List.map (Refresh.mapValues f))).getD [] =
      (onDuplicate.getD []).map (Refresh.mapValues f) := by
  cases onDuplicate <;> rfl

theorem check_mapValues (f : Value → Value) (q : Insert) :
    (q.mapValues f).check = q.check.mapError (Error.mapValues f) := by
  have hcolumns := columnNames_mapValues f q
  obtain ⟨table, schema, rows, ignore, onDuplicate⟩ := q
  rw [check, check, hcolumns, mapValues, Except.mapError_bind, Target.resolve_mapError]
  simp only [getD_mapValues, List.isEmpty_map, Except.forM_mapError (refreshCheck_mapValues f _)]
  cases Target.resolve table schema none with
  | error e => rfl
  | ok t =>
    cases rows with
    | nil => rfl
    | cons row rows => cases (Insert.columnNames _).isEmpty <;> rfl

theorem layout_mapValues (f : Value → Value) (q : Insert) :
    (q.mapValues f).layout = q.layout.mapValues f := by
  have hcolumns := columnNames_mapValues f q
  obtain ⟨table, schema, rows, ignore, onDuplicate⟩ := q
  have hfirst : (rows.map (Row.mapValues f)).headD .empty = (rows.headD .empty).mapValues f := by
    cases rows <;> rfl
  rw [layout, layout, hcolumns, mapValues]
  simp only [hfirst, getD_mapValues, List.map_map, Function.comp_def, tupleLayout_mapValues,
    refreshLayout_mapValues, mapValues_append, openingLayout_mapValues, ← headed_mapValues,
    ← joined_mapValues]

end Insert

/-! ## Definitions -/

namespace Column

theorem check_mapValues (f : Value → Value) (c : Column) :
    (c.mapValues f).check = c.check.mapError (Error.mapValues f) := by
  rw [check, check, mapValues]
  split
  · rfl
  · split <;> rfl

/-- A raw default keeps its text alone, so its values are not seen. -/
theorem layout_mapValues (f : Value → Value) (c : Column) : (c.mapValues f).layout = c.layout := by
  have hdefault : (c.default.map (ColumnDefault.mapValues f)).bind ColumnDefault.layout? =
      c.default.bind ColumnDefault.layout? := by
    cases c.default with
    | none => rfl
    | some d => cases d <;> rfl
  have hmodifiers : (c.mapValues f).modifierLayouts = c.modifierLayouts := by
    rw [modifierLayouts, modifierLayouts, mapValues, hdefault]
  rw [layout, layout, hmodifiers]
  rfl

end Column

theorem ForeignKey.check_mapError (f : Value → Value) (k : ForeignKey) :
    k.check = k.check.mapError (Error.mapValues f) := by
  rw [check]
  split <;> rfl

namespace CreateTable

theorem check_mapValues (f : Value → Value) (q : CreateTable) :
    (q.mapValues f).check = q.check.mapError (Error.mapValues f) := by
  obtain ⟨table, schema, columns, foreignKeys⟩ := q
  have hkeys := Except.forM_mapError (m := id) (ForeignKey.check_mapError f) foreignKeys
  rw [List.map_id] at hkeys
  rw [check, check, mapValues, Except.mapError_bind, Target.resolve_mapError]
  simp only [List.isEmpty_map, Except.forM_mapError (Column.check_mapValues f)]
  cases Target.resolve table schema none with
  | error e => rfl
  | ok t =>
    cases columns.isEmpty with
    | true => rfl
    | false =>
      cases columns.forM Column.check with
      | error e => rfl
      | ok u => exact hkeys

theorem layout_mapValues (f : Value → Value) (q : CreateTable) :
    (q.mapValues f).layout = q.layout.mapValues f := by
  obtain ⟨table, schema, columns, foreignKeys⟩ := q
  have hbody := bodyLayout_map (Column.layout_mapValues f) (fun _ => rfl) (fun _ => rfl) columns
    foreignKeys
  have hname := congrArg Fragment.bindings (Target.name_eq .mysql ⟨table.getD "", schema, none⟩)
  have hunbound := congrArg Fragment.bindings (body_eq .mysql columns foreignKeys)
  rw [layout, mapValues, hbody]
  symm
  refine mapValues_of_unbound (d := .mysql) f ?_
  simp [layout, Piece.sql, ← hname, ← hunbound]

end CreateTable

namespace CreateIndex

theorem check_mapError (f : Value → Value) (q : CreateIndex) :
    q.check.mapError (Error.mapValues f) = q.check := by
  obtain ⟨table, schema, name, unique, columns⟩ := q
  rw [check, Except.mapError_bind, Target.resolve_mapError]
  cases Target.resolve table schema none with
  | error e => rfl
  | ok t =>
    cases Text.isBlank name with
    | true => rfl
    | false => cases columns <;> rfl

theorem layout_mapValues (f : Value → Value) (q : CreateIndex) :
    q.layout.mapValues f = q.layout := by
  have hname := congrArg Fragment.bindings
    (Target.name_eq .mysql ⟨q.table.getD "", q.schema, none⟩)
  have hcolumns := congrArg Fragment.bindings (Dialect.ofText_names .mysql q.columns)
  refine mapValues_of_unbound (d := .mysql) f ?_
  cases hunique : q.unique <;> simp [layout, Piece.sql, hunique, ← hname, ← hcolumns]

end CreateIndex

/-! ## Statements -/

namespace Query

include hf in
theorem check_mapValues (q : Query) :
    (q.mapValues f).check = q.check.mapError (Error.mapValues f) := by
  cases q with
  | select q => exact Select.check_mapValues hf q
  | insert q => exact Insert.check_mapValues f q
  | update q => exact Update.check_mapValues hf q
  | delete q => exact Delete.check_mapValues hf q
  | createTable q => exact CreateTable.check_mapValues f q
  | createIndex q => exact (CreateIndex.check_mapError f q).symm

include hf in
theorem layout_mapValues (q : Query) : (q.mapValues f).layout = q.layout.mapValues f := by
  cases q with
  | select q => exact Select.layout_mapValues hf q
  | insert q => exact Insert.layout_mapValues f q
  | update q => exact Update.layout_mapValues hf q
  | delete q => exact Delete.layout_mapValues hf q
  | createTable q => exact CreateTable.layout_mapValues f q
  | createIndex q => exact (CreateIndex.layout_mapValues f q).symm

/-- For each placeholder of a statement, whether the caller supplied its value; else it counts
rows. -/
def supplied (q : Query) : List Bool := q.layout.supplied

end Query

include hf in
/-- The message names the value by its text, which stays. -/
theorem Error.message_mapValues (e : Error) : (e.mapValues f).message = e.message := by
  cases e with
  | notLiteral op column value =>
    have hdetail : detail (.notLiteral op column (f value)) =
        detail (.notLiteral op column value) :=
      congrArg (fun text =>
        op.keyword ++ " on '" ++ column ++ "' needs a boolean or null, got " ++ text)
        (hf.text value)
    exact congrArg (fun detail => "Invalid argument: " ++ detail) hdetail
  | _ => simp only [mapValues]

theorem Error.kind_mapValues (f : Value → Value) (e : Error) : (e.mapValues f).kind = e.kind := by
  cases e <;> rfl

end

/-! ## Signed values -/

namespace Value

theorem memberText_signed_uint (n : UInt64) :
    (Value.uint n).signed.memberText = (Value.uint n).memberText := by
  rw [signed]
  split
  · rename_i h
    have hint : n.toInt64.toInt = n.toNat := by
      have hlt : n.toNat ≤ 0x7fffffffffffffff := UInt64.le_iff_toNat_le.1 h
      exact BitVec.toInt_eq_toNat_of_lt (x := n.toBitVec) (by rw [UInt64.toNat_toBitVec]; omega)
    have hsign : ¬(n.toNat : Int) < 0 := by omega
    rw [memberText, memberText, int64Text, uint64Text, hint, Number.intText, if_neg hsign,
      Int.natAbs_natCast]
  · rfl

mutual

theorem memberText_signed : (v : Value) → v.signed.memberText = v.memberText
  | .null | .bool _ | .int _ | .float _ | .dateTime _ | .date _ | .string _ => rfl
  | .uint n => memberText_signed_uint n
  | .list members => by rw [signed, memberText, memberText, memberTexts_signeds members]

theorem memberTexts_signeds : (vs : List Value) → memberTexts (signeds vs) = memberTexts vs
  | [] => rfl
  | v :: rest => by
    rw [signeds, memberTexts, memberTexts, memberText_signed v, memberTexts_signeds rest]

end

/-- No statement tells a signed integer from an unsigned one. -/
theorem isUnseen_signed : IsUnseen signed where
  literal v := by
    cases v with
    | uint n =>
      rw [signed]
      split <;> rfl
    | _ => rfl
  text v := by
    have htext := memberText_signed v
    cases v with
    | uint n =>
      rw [signed] at *
      split at htext
      · rw [if_pos ‹_›]
        exact htext
      · rw [if_neg ‹_›]
    | list members => exact congrArg (fun text => "'" ++ text ++ "'") htext
    | _ => rfl
  binding v := by
    cases v with
    | uint n =>
      have hsigned : (Value.uint n).signed.binding = (Value.uint n).signed := by
        rw [signed]
        split <;> rfl
      exact hsigned
    | list members =>
      rw [signed, binding, binding, memberTexts_signeds]
      rfl
    | _ => rfl
  string _ := rfl

end Value

/-! ## Round trips -/

/-- A statement is read back from its document with the unsigned integers signed wherever they
fit, provided that its values and defaults are exact and that the document is not too deep. It
then is refused with the same message, or has the same text and binds the same values but for
the integers that the caller supplied. -/
theorem Query.parse?_document {q : Query} (hexact : ∀ v ∈ q.allValues, v.isExact = true)
    (hfloat : q.hasFloatDefault = false) (hdepth : q.toJson.depth ≤ 127) :
    parse? q.toJson.compact = some q.reloaded ∧
      match q.sql .mysql with
      | .error e => ∃ e', q.reloaded.sql .mysql = .error e' ∧ e'.kind = e.kind ∧
          e'.message = e.message
      | .ok f => ∃ g, q.reloaded.sql .mysql = .ok g ∧ g.text = f.text ∧
          q.supplied.length = f.bindings.length ∧
          g.bindings = List.zipWith (fun supplied v => if supplied then v.signed else v)
            q.supplied f.bindings := by
  have hunseen := Value.isUnseen_signed
  constructor
  · have hjson := Json.parse?_compact (isExact_toJson hexact hfloat) hdepth
    rw [parse?, hjson]
    exact ofJson?_toJson hexact hfloat
  · have hcheck := check_mapValues hunseen q
    have hlayout := layout_mapValues hunseen q
    rw [sql_eq Dialect.visible_mysql, sql_eq Dialect.visible_mysql, reloaded, hcheck, hlayout]
    cases q.check with
    | error e =>
      exact ⟨_, rfl, Error.kind_mapValues _ e, Error.message_mapValues hunseen e⟩
    | ok u =>
      exact ⟨_, rfl, text_mapValues _ _ _, length_supplied _ _,
        bindings_mapValues hunseen _ _⟩

/-- A page of events with unsigned integers in raw SQL, in a list and in the limit. -/
def Query.archive : Query :=
  .select
    { Select.ofTable "events" with
      columns := [.rawColumn ⟨"COALESCE(size, ?)", [.uint 0]⟩]
      filter :=
        ⟨[.oneOf (.plain "id") [.uint 7, .uint 18446744073709551615] false,
          .comparison (.plain "day") .gte (.date ⟨2024, 2, 29, by decide⟩),
          .comparison (.plain "tags") .eq (.list [.uint 3, .string "2024-02-29"])], .and⟩
      limits := ⟨10, 0⟩ }

theorem Query.parse?_document_archive :
    (∀ v ∈ Query.archive.allValues, v.isExact = true) ∧ Query.archive.hasFloatDefault = false ∧
      Query.archive.toJson.depth ≤ 127 ∧
      parse? Query.archive.toJson.compact = some Query.archive.reloaded ∧
      ∃ f g, Query.archive.sql .mysql = .ok f ∧ Query.archive.reloaded.sql .mysql = .ok g ∧
        g.text = f.text ∧
        f.bindings = [.uint 0, .uint 7, .uint 18446744073709551615,
          .date ⟨2024, 2, 29, by decide⟩, .string "3,2024-02-29", .uint 10] ∧
        g.bindings = [.int 0, .int 7, .uint 18446744073709551615,
          .date ⟨2024, 2, 29, by decide⟩, .string "3,2024-02-29", .uint 10] := by
  have hexact : ∀ v ∈ Query.archive.allValues, v.isExact = true := by decide
  have hdepth : Query.archive.toJson.depth ≤ 127 := by decide
  have hsql : Query.archive.sql .mysql = .ok (Query.archive.layout.write .mysql) :=
    (Query.sql_eq_ok_iff Dialect.visible_mysql).2 ⟨rfl, rfl⟩
  obtain ⟨hparse, hreload⟩ := Query.parse?_document hexact rfl hdepth
  rw [hsql] at hreload
  obtain ⟨g, hg, htext, -, hbindings⟩ := hreload
  exact ⟨hexact, rfl, hdepth, hparse, _, g, hsql, hg, htext, rfl, hbindings⟩

end BoundSql
