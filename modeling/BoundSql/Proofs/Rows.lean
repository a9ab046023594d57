import BoundSql.Proofs.Joined
import BoundSql.Proofs.Layout.Query
import BoundSql.Proofs.Refusal
import BoundSql.Proofs.Reload.Basic
import Mathlib.Data.List.Induction
import Mathlib.Data.List.Perm.Basic

/-!
# Rows of insertions

The rows of an insertion become a matrix: one tuple for each row, and in each tuple one item for
each column that some row names. Every item has text, so none is left out, and the values are bound
row by row. Rows that name no column twice have each of their values bound once.
-/
namespace BoundSql

open Fragment

/-! ## First appearances -/

section
variable {α : Type} [DecidableEq α]

/-- Scanning one more member adds it if it is new. -/
theorem List.eraseDups_concat (as : List α) (a : α) :
    (as ++ [a]).eraseDups = if a ∈ as then as.eraseDups else as.eraseDups ++ [a] := by
  rw [List.eraseDups_append]
  by_cases ha : a ∈ as <;> simp [ha, List.removeAll, List.eraseDups_cons]

/-- What is left stands in the order of first appearance. -/
theorem List.pairwise_idxOf_eraseDups (as : List α) :
    as.eraseDups.Pairwise fun a b => as.idxOf a < as.idxOf b := by
  induction as using List.reverseRecOn with
  | nil => exact .nil
  | append_singleton as a ih =>
    have hidx : ∀ b ∈ as, (as ++ [a]).idxOf b = as.idxOf b :=
      fun b hb => List.idxOf_append_of_mem hb
    have hscanned : as.eraseDups.Pairwise fun b c =>
        (as ++ [a]).idxOf b < (as ++ [a]).idxOf c := by
      refine ih.imp_of_mem fun hb hc hlt => ?_
      rw [hidx _ (List.mem_eraseDups.1 hb), hidx _ (List.mem_eraseDups.1 hc)]
      exact hlt
    rw [List.eraseDups_concat]
    by_cases ha : a ∈ as
    · rw [if_pos ha]
      exact hscanned
    · rw [if_neg ha, List.pairwise_append]
      refine ⟨hscanned, List.pairwise_singleton .., fun b hb c hc => ?_⟩
      obtain rfl := List.mem_singleton.1 hc
      have hmem := List.mem_eraseDups.1 hb
      rw [hidx b hmem, List.idxOf_append_of_notMem ha]
      exact Nat.lt_add_right _ (List.idxOf_lt_length_of_mem hmem)

theorem List.nodup_of_pairwise_idxOf {as bs : List α}
    (h : bs.Pairwise fun a b => as.idxOf a < as.idxOf b) : bs.Nodup :=
  h.imp fun {a b} hlt (heq : a = b) => absurd (heq ▸ hlt) (Nat.lt_irrefl _)

end

/-! ## Values of a row -/

namespace Cell

def value? : Cell → Option Value
  | .default => none
  | .value v => some v

theorem bindings_sql (s : Scope) (c : Cell) :
    (c.sql s).bindings = c.value?.toList.map Value.binding := by
  cases c <;> rfl

theorem allValues_eq (c : Cell) : c.allValues = c.value?.toList := by
  cases c <;> rfl

end Cell

namespace Row

def columnNames (r : Row) : List String := r.fields.map Prod.fst

/-- The value of the first field with the name; there may be no such field, or one without a
value. -/
def value? (r : Row) (column : String) : Option Value :=
  (r.fields.find? fun field => field.1 == column).bind fun field => field.2.value?

/-- The values of a row in the order of the columns. -/
def values (columns : List String) (r : Row) : List Value := columns.filterMap r.value?

/-- A placeholder for a value, and `DEFAULT` without one. -/
def item (d : Dialect) (r : Row) (column : String) : String :=
  if (r.value? column).isSome then d.placeholder else "DEFAULT"

/-- One item for each column, between parentheses. -/
def tuple (d : Dialect) (columns : List String) (r : Row) : String :=
  "(" ++ String.intercalate "," (columns.map (r.item d)) ++ ")"

theorem value?_cell (r : Row) (column : String) : (r.cell column).value? = r.value? column := by
  obtain ⟨fields⟩ := r
  rw [cell, value?]
  dsimp only
  induction fields with
  | nil => rfl
  | cons field rest ih =>
    obtain ⟨name, content⟩ := field
    rw [List.lookup_cons, List.find?_cons]
    by_cases hname : name = column
    · simp [hname]
    · have hne : (column == name) = false := by simpa using Ne.symm hname
      have hne' : (name == column) = false := by simpa using hname
      simp only [hne, hne']
      exact ih

/-- In a row that names no column twice every field is the first one of its name. -/
theorem value?_of_mem {r : Row} (h : r.columnNames.Nodup) {field : String × Cell}
    (hfield : field ∈ r.fields) : r.value? field.1 = field.2.value? := by
  have hfind : (r.fields.find? fun other => other.1 == field.1) = some field := by
    rw [List.find?_eq_some_iff_append]
    obtain ⟨before, after, hfields⟩ := List.append_of_mem hfield
    refine ⟨beq_self_eq_true _, before, after, hfields, fun other hother => ?_⟩
    rw [columnNames, hfields, List.map_append, List.map_cons, List.nodup_append] at h
    have hne : other.1 ≠ field.1 :=
      h.2.2 _ (List.mem_map_of_mem hother) _ (List.mem_cons_self ..)
    simpa using hne
  rw [value?, hfind, Option.bind_some]

theorem value?_of_notMem {r : Row} {column : String} (h : column ∉ r.columnNames) :
    r.value? column = none := by
  have hfind : (r.fields.find? fun field => field.1 == column) = none := by
    rw [List.find?_eq_none]
    intro field hfield heq
    exact h (List.mem_map.2 ⟨field, hfield, by simpa using heq⟩)
  rw [value?, hfind, Option.bind_none]

/-- Columns that contain those of the row hold all of its values, unless it names one twice. -/
theorem values_perm {r : Row} {columns : List String} (hcolumns : columns.Nodup)
    (h : r.columnNames.Nodup) (hsub : r.columnNames ⊆ columns) :
    (r.values columns).Perm r.allValues := by
  have hnamed : (columns.filter (· ∈ r.columnNames)).Perm r.columnNames := by
    rw [List.perm_ext_iff_of_nodup (hcolumns.filter _) h]
    intro c
    rw [List.mem_filter, decide_eq_true_iff]
    exact ⟨And.right, fun hc => ⟨hsub hc, hc⟩⟩
  have hvalues : r.values columns = r.values (columns.filter (· ∈ r.columnNames)) := by
    rw [values, values, List.filterMap_filter]
    refine List.filterMap_congr fun c _ => ?_
    by_cases hc : c ∈ r.columnNames
    · simp [hc]
    · simp [hc, value?_of_notMem hc]
  have hown : r.values r.columnNames = r.allValues := by
    rw [values, columnNames, List.filterMap_map, allValues, List.filterMap_eq_flatMap_toList]
    refine List.flatMap_congr fun field hfield => ?_
    rw [Function.comp_apply, value?_of_mem h hfield, Cell.allValues_eq]
  rw [hvalues, ← hown]
  exact hnamed.filterMap r.value?

end Row

/-! ## The matrix -/

section
variable {s : Scope} (hs : s.dialect.Visible) (columns : List String) (r : Row)
include hs

/-- No item of a tuple is left out. -/
theorem Insert.tupleSql_eq_tuple :
    tupleSql s columns r = ⟨r.tuple s.dialect columns, (r.values columns).map Value.binding⟩ := by
  have htext : ∀ c, ((r.cell c).sql s).text = r.item s.dialect c := by
    intro c
    rw [Row.item, ← Row.value?_cell]
    cases r.cell c <;> rfl
  have hbindings : ∀ c, ((r.cell c).sql s).bindings = (r.value? c).toList.map Value.binding := by
    intro c
    rw [Cell.bindings_sql, Row.value?_cell]
  have hitems : ∀ f ∈ columns.map fun c => (r.cell c).sql s, f.isEmpty = false := by
    intro f hf
    obtain ⟨c, -, rfl⟩ := List.mem_map.1 hf
    rw [← Bool.not_eq_true, Fragment.isEmpty_iff, htext, Row.item]
    split
    · exact hs.placeholder
    · decide
  rw [tupleSql, joined_eq "," hitems]
  ext1
  · simp [Row.tuple, Function.comp_def, htext]
  · simp [Row.values, hbindings, List.flatMap_map, List.filterMap_eq_flatMap_toList,
      List.map_flatMap]

end

/-- No tuple is left out either. -/
theorem Insert.joined_tupleSql (s : Scope) (hs : s.dialect.Visible) (columns : List String)
    (rows : List Row) :
    joined "," (rows.map (tupleSql s columns)) =
      ⟨String.intercalate "," (rows.map (Row.tuple s.dialect columns)),
        (rows.flatMap (Row.values columns)).map Value.binding⟩ := by
  have htuples : ∀ f ∈ rows.map (tupleSql s columns), f.isEmpty = false := by
    intro f hf
    obtain ⟨r, -, rfl⟩ := List.mem_map.1 hf
    rw [tupleSql, isEmpty_append, isEmpty_append]
    rfl
  rw [joined_eq "," htuples]
  ext1
  · simp [Function.comp_def, tupleSql_eq_tuple hs]
  · simp [tupleSql_eq_tuple hs, List.flatMap_map, List.map_flatMap]

namespace Insert

/-- The columns that rows name, row by row and field by field. -/
def fieldNames (q : Insert) : List String := q.rows.flatMap Row.columnNames

/-- What stands in front of the rows. -/
def opening (d : Dialect) (q : Insert) : String :=
  let target : Target := ⟨q.table.getD "", q.schema, none⟩
  "INSERT " ++ (if q.ignore then "IGNORE " else "") ++ "INTO " ++ target.name d ++
    " (" ++ String.intercalate "," (q.columnNames.map d.quote) ++ ") VALUES "

/-- A column stands in the list behind the columns that appear before it. -/
theorem pairwise_columnNames (q : Insert) :
    q.columnNames.Pairwise fun b c => q.fieldNames.idxOf b < q.fieldNames.idxOf c :=
  List.pairwise_idxOf_eraseDups q.fieldNames

theorem nodup_columnNames (q : Insert) : q.columnNames.Nodup :=
  List.nodup_of_pairwise_idxOf q.pairwise_columnNames

theorem columnNames_subset {q : Insert} {r : Row} (hr : r ∈ q.rows) :
    r.columnNames ⊆ q.columnNames := by
  intro c hc
  exact List.mem_eraseDups.2 (List.mem_flatMap.2 ⟨r, hr, hc⟩)

/-- Rows that name no column twice lose no value. -/
theorem flatMap_values_perm {q : Insert} (h : ∀ r ∈ q.rows, r.columnNames.Nodup) :
    (q.rows.flatMap (Row.values q.columnNames)).Perm (q.rows.flatMap Row.allValues) :=
  List.Perm.flatMap_left _ fun r hr =>
    Row.values_perm q.nodup_columnNames (h r hr) (columnNames_subset hr)

/-- What is rendered once an insertion is written. -/
theorem sql_eq_rows {d : Dialect} {q : Insert} {f : Fragment} (h : q.sql d = .ok f) :
    ∃ first refresh, q.rows.head? = some first ∧
      refreshClause ⟨d, none⟩ q.columnNames first (q.onDuplicate.getD []) = .ok refresh ∧
      f = .ofText (q.opening d) ++ .joined "," (q.rows.map (tupleSql ⟨d, none⟩ q.columnNames)) ++
        refresh := by
  obtain ⟨target, htarget, hrest⟩ := Except.bind_eq_ok.1 h
  obtain rfl := Target.eq_of_resolve htarget
  cases hrows : q.rows with
  | nil => simp [hrows, throw, throwThe, MonadExceptOf.throw] at hrest
  | cons first rest =>
    rw [hrows] at hrest
    obtain ⟨-, hwritten⟩ := Except.guard_eq_ok.1 hrest
    obtain ⟨refresh, hrefresh, hf⟩ := Except.bind_eq_ok.1 hwritten
    exact ⟨first, refresh, rfl, hrefresh, (Except.ok.inj hf).symm⟩

/-- The column list of an insertion has every column that some row names, once and in the order of
first appearance. Behind it stands one tuple for each row, with a placeholder where the first field
of a column has a value and `DEFAULT` elsewhere; the values are bound row by row, in front of those
of the renewed columns. If no row names a column twice, these are all values of all rows. -/
theorem sql_rows {d : Dialect} (hd : d.Visible) {q : Insert} {f : Fragment}
    (h : q.sql d = .ok f) :
    q.columnNames.Nodup ∧ (∀ c, c ∈ q.columnNames ↔ q.Names c) ∧
      (q.columnNames.Pairwise fun b c => q.fieldNames.idxOf b < q.fieldNames.idxOf c) ∧
      ∃ first refresh, q.rows.head? = some first ∧
        refreshClause ⟨d, none⟩ q.columnNames first (q.onDuplicate.getD []) = .ok refresh ∧
        f.text = q.opening d ++
          String.intercalate "," (q.rows.map (Row.tuple d q.columnNames)) ++ refresh.text ∧
        f.bindings =
          (q.rows.flatMap (Row.values q.columnNames)).map Value.binding ++ refresh.bindings ∧
        ((∀ r ∈ q.rows, r.columnNames.Nodup) →
          (q.rows.flatMap (Row.values q.columnNames)).Perm (q.rows.flatMap Row.allValues)) := by
  obtain ⟨first, refresh, hfirst, hrefresh, rfl⟩ := sql_eq_rows h
  rw [joined_tupleSql ⟨d, none⟩ hd]
  exact ⟨q.nodup_columnNames, fun _ => mem_columnNames, q.pairwise_columnNames, first, refresh,
    hfirst, hrefresh, rfl, rfl, flatMap_values_perm⟩

/-- Rows of different shapes, the second one with its columns in another order. -/
def sparseParts : Insert :=
  { ofTable "parts" with
    ignore := true
    rows :=
      [⟨[("a", .value (.int 1)), ("b", .default)]⟩,
        ⟨[("c", .value (.list [.int 2, .int 3])), ("a", .value (.int 4))]⟩]
    onDuplicate := some [.column "a", .raw ⟨"n = n + ?", [.int 5]⟩] }

theorem sql_rows_sparseParts :
    ∃ f refresh, sparseParts.sql .mysql = .ok f ∧ sparseParts.columnNames = ["a", "b", "c"] ∧
      sparseParts.columnNames.Nodup ∧
      f.text = "INSERT IGNORE INTO \x60parts\x60 (\x60a\x60,\x60b\x60,\x60c\x60) VALUES " ++
        "(?,DEFAULT,DEFAULT),(?,DEFAULT,?) ON DUPLICATE KEY UPDATE \x60a\x60 = ?,n = n + ?" ∧
      f.bindings = [.int 1, .int 4, .string "2,3", .int 1, .int 5] ∧
      refreshClause ⟨.mysql, none⟩ ["a", "b", "c"] ⟨[("a", .value (.int 1)), ("b", .default)]⟩
        [.column "a", .raw ⟨"n = n + ?", [.int 5]⟩] = .ok refresh ∧
      f.bindings =
        (sparseParts.rows.flatMap (Row.values ["a", "b", "c"])).map Value.binding ++
          refresh.bindings ∧
      (sparseParts.rows.flatMap (Row.values ["a", "b", "c"])).Perm
        (sparseParts.rows.flatMap Row.allValues) := by
  have hsql : sparseParts.sql .mysql = .ok (sparseParts.layout.write .mysql) :=
    (Query.sql_eq_ok_iff Dialect.visible_mysql (q := .insert sparseParts)).2 ⟨rfl, rfl⟩
  have hcolumns : sparseParts.columnNames = ["a", "b", "c"] := by decide +kernel
  obtain ⟨hnodup, -, -, first, refresh, hfirst, hrefresh, -, hbindings, hperm⟩ :=
    sql_rows Dialect.visible_mysql hsql
  obtain rfl := Option.some.inj hfirst
  rw [hcolumns] at hrefresh hbindings hperm
  exact ⟨_, refresh, hsql, hcolumns, hnodup, by decide +kernel, by rfl, hrefresh, hbindings,
    hperm (by decide +kernel)⟩

end Insert
end BoundSql
