import BoundSql.Proofs.Rows
import Mathlib.Data.List.Forall2
import Mathlib.Data.List.ReduceOption

/-!
# Renewed columns

An insertion may renew the row that is already there. What a renewed column takes is read off the
first tuple of the statement: where a placeholder stands in the place of the column, its value is
bound once more, and `DEFAULT` stays `DEFAULT`. Raw SQL without text is left out, and the clause
is absent if nothing else is renewed.
-/
namespace BoundSql

open Fragment

/-- A list of computations succeeds if each member does. -/
theorem Except.mapM_eq_ok {ε α β : Type} {f : α → Except ε β} {as : List α} {bs : List β} :
    as.mapM f = .ok bs ↔ List.Forall₂ (fun a b => f a = .ok b) as bs := by
  induction as generalizing bs with
  | nil => cases bs <;> simp [pure, Except.pure]
  | cons a as ih =>
    rw [List.mapM_cons, List.forall₂_cons_left_iff]
    constructor
    · intro h
      obtain ⟨b, hb, hrest⟩ := Except.bind_eq_ok.1 h
      obtain ⟨rest, hmapM, hbs⟩ := Except.bind_eq_ok.1 hrest
      exact ⟨b, rest, hb, ih.1 hmapM, (Except.ok.inj hbs).symm⟩
    · rintro ⟨b, rest, hb, hrest, rfl⟩
      rw [hb, ih.2 hrest]
      rfl

/-- Words stand in front of a join if some part has text. -/
theorem surrounded_joined (before separator : String) (parts : List Fragment) :
    let shown := parts.filter fun f => !f.isEmpty
    (joined separator parts).surrounded before "" =
      ⟨if shown.isEmpty then "" else before ++ String.intercalate separator (shown.map text),
        shown.flatMap bindings⟩ := by
  intro shown
  have hempty : (joined separator parts).isEmpty = shown.isEmpty := by
    rw [isEmpty_joined, Bool.eq_iff_iff]
    simp [shown, List.filter_eq_nil_iff]
  ext1
  · rw [surrounded, hempty]
    split
    · rename_i hshown
      rwa [← hempty, Fragment.isEmpty_iff] at hshown
    · simp [joined, shown]
  · exact bindings_surrounded _ _ _

/-! ## Tuples -/

/-- A placeholder for a bound value, and `DEFAULT` where nothing is bound. -/
def entryText (d : Dialect) : Option Value → String
  | some _ => d.placeholder
  | none => "DEFAULT"

/-- The entries of a tuple between parentheses. -/
def tupleText (d : Dialect) (tuple : List (Option Value)) : String :=
  "(" ++ String.intercalate "," (tuple.map (entryText d)) ++ ")"

namespace Row

/-- One entry for each column, with the value that is bound for it. -/
def entries (columns : List String) (r : Row) : List (Option Value) :=
  columns.map fun c => (r.value? c).map Value.binding

theorem tuple_eq_tupleText (d : Dialect) (columns : List String) (r : Row) :
    r.tuple d columns = tupleText d (r.entries columns) := by
  have hitem : ∀ c, r.item d c = entryText d ((r.value? c).map Value.binding) := by
    intro c
    rw [item]
    cases r.value? c <;> rfl
  rw [tuple, tupleText, entries, List.map_map, List.map_congr_left fun c _ => hitem c]
  rfl

theorem map_binding_values (columns : List String) (r : Row) :
    (r.values columns).map Value.binding = (r.entries columns).reduceOption := by
  rw [values, List.map_filterMap, entries, List.reduceOption, List.filterMap_map]
  rfl

end Row

/-! ## Items -/

/-- Raw SQL without text. -/
def Refresh.isHollow : Refresh → Bool
  | .column _ => false
  | .raw r => r.text.isEmpty

/-- How an item is written behind a tuple: a column has the entry that stands in its place. -/
inductive Renews (d : Dialect) (columns : List String) (tuple : List (Option Value)) :
    Refresh → Fragment → Prop
  | bound {i : ℕ} {c : String} {v : Value} (hcolumn : columns[i]? = some c)
      (hentry : tuple[i]? = some (some v)) :
      Renews d columns tuple (.column c) ⟨d.quote c ++ " = " ++ d.placeholder, [v]⟩
  | default {i : ℕ} {c : String} (hcolumn : columns[i]? = some c)
      (hentry : tuple[i]? = some none) :
      Renews d columns tuple (.column c) ⟨d.quote c ++ " = DEFAULT", []⟩
  | raw (r : RawSql) : Renews d columns tuple (.raw r) r.sql

theorem Renews.isEmpty_eq {d : Dialect} {columns : List String} {tuple : List (Option Value)}
    {item : Refresh} {f : Fragment} (h : Renews d columns tuple item f) :
    f.isEmpty = item.isHollow := by
  cases h with
  | bound hcolumn hentry => simp [isEmpty, Refresh.isHollow]
  | default hcolumn hentry => simp [isEmpty, Refresh.isHollow]
  | raw r => rfl

namespace Insert

/-- The tuples of an insertion, one for each row. -/
def tuples (q : Insert) : List (List (Option Value)) := q.rows.map (Row.entries q.columnNames)

section
variable {d : Dialect} {columns : List String} {first : Row}

/-- The value of a renewed column is looked up in the row, and it is the one in the tuple. -/
theorem renews_of_refreshSql {item : Refresh} {f : Fragment}
    (h : refreshSql ⟨d, none⟩ columns first item = .ok f) :
    Renews d columns (first.entries columns) item f := by
  cases item with
  | raw r =>
    obtain rfl := Except.ok.inj h
    exact .raw r
  | column c =>
    rw [refreshSql] at h
    split at h
    · rename_i hc
      obtain ⟨i, hi⟩ := List.getElem?_of_mem (List.contains_iff_mem.1 hc)
      obtain rfl := Except.ok.inj h
      have hentry : (first.entries columns)[i]? = some ((first.value? c).map Value.binding) := by
        rw [Row.entries, List.getElem?_map, hi, Option.map_some]
      rw [← Row.value?_cell] at hentry
      cases hcell : first.cell c with
      | default =>
        have htext : Fragment.ofText (d.quote c ++ " = ") ++ Cell.default.sql ⟨d, none⟩ =
            ⟨d.quote c ++ " = DEFAULT", []⟩ := by
          ext1 <;> simp [Cell.sql, String.append_assoc]
        rw [hcell] at hentry
        exact htext ▸ .default hi hentry
      | value v =>
        rw [hcell] at hentry
        exact .bound hi hentry
    · cases h

/-- The clause joins the items that have text, and without such items there is none. -/
theorem refreshClause_eq_ok {items : List Refresh} {f : Fragment}
    (h : refreshClause ⟨d, none⟩ columns first items = .ok f) :
    ∃ written,
      List.Forall₂ (Renews d columns (first.entries columns))
        (items.filter fun item => !item.isHollow) written ∧
      f = ⟨if written.isEmpty then ""
          else " ON DUPLICATE KEY UPDATE " ++ String.intercalate "," (written.map Fragment.text),
        written.flatMap Fragment.bindings⟩ := by
  obtain ⟨parts, hparts, hf⟩ := Except.bind_eq_ok.1 h
  have hrenews : List.Forall₂ (Renews d columns (first.entries columns)) items parts :=
    (Except.mapM_eq_ok.1 hparts).imp fun _ _ => renews_of_refreshSql
  have hshown : List.Forall₂ (Renews d columns (first.entries columns))
      (items.filter fun item => !item.isHollow) (parts.filter fun f => !f.isEmpty) :=
    List.rel_filter (fun item f h => by simp [h.isEmpty_eq]) hrenews
  refine ⟨_, hshown, ?_⟩
  rw [← surrounded_joined]
  exact (Except.ok.inj hf).symm

end

theorem joined_tuples {d : Dialect} (hd : d.Visible) (q : Insert) :
    joined "," (q.rows.map (tupleSql ⟨d, none⟩ q.columnNames)) =
      ⟨String.intercalate "," (q.tuples.map (tupleText d)),
        q.tuples.flatMap List.reduceOption⟩ := by
  rw [joined_tupleSql ⟨d, none⟩ hd]
  ext1
  · rw [tuples, List.map_map, List.map_congr_left fun r _ => Row.tuple_eq_tupleText d _ r]
    rfl
  · simp [tuples, List.map_flatMap, List.flatMap_map, Row.map_binding_values]

/-- Without the clause the insertion is not refused either, and it is written up to the tuples. -/
theorem sql_withoutRenewal {d : Dialect} (hd : d.Visible) {q : Insert} {f : Fragment}
    (h : q.sql d = .ok f) :
    ({ q with onDuplicate := none } : Insert).sql d =
      .ok ⟨q.opening d ++ String.intercalate "," (q.tuples.map (tupleText d)),
        q.tuples.flatMap List.reduceOption⟩ := by
  have hrefused : ¬ q.IsRefused := by
    rw [← fails_sql d, h]
    exact not_fails_ok f
  have hplain : ¬ Fails (({ q with onDuplicate := none } : Insert).sql d) := by
    rw [fails_sql]
    rintro (htarget | hrows | hcolumns | ⟨items, hitems, -⟩)
    · exact hrefused (.inl htarget)
    · exact hrefused (.inr (.inl hrows))
    · exact hrefused (.inr (.inr (.inl hcolumns)))
    · cases hitems
  cases hsql : ({ q with onDuplicate := none } : Insert).sql d with
  | error e => exact absurd ⟨e, hsql⟩ hplain
  | ok g =>
    obtain ⟨first, refresh, -, hrefresh, rfl⟩ := sql_eq_rows hsql
    obtain rfl : Fragment.empty = refresh := Except.ok.inj hrefresh
    have hjoined := joined_tuples hd { q with onDuplicate := none }
    rw [hjoined]
    refine congrArg Except.ok (Fragment.ext ?_ ?_)
    · exact String.append_empty
    · exact List.append_nil _

/-- Whatever an insertion renews, it is written as without that, and the clause follows. It has the
items that have text, in their order: raw SQL as it is given, and a column with the entry that
stands in its place in the first tuple, bound once more if it is a value. -/
theorem sql_renewal {d : Dialect} (hd : d.Visible) {q : Insert} {items : List Refresh}
    (hitems : q.onDuplicate = some items) {f : Fragment} (h : q.sql d = .ok f) :
    q.columnNames.Nodup ∧
      ∃ first rest plain written,
        q.tuples = first :: rest ∧
        ({ q with onDuplicate := none } : Insert).sql d = .ok plain ∧
        plain.text = q.opening d ++ String.intercalate "," (q.tuples.map (tupleText d)) ∧
        plain.bindings = q.tuples.flatMap List.reduceOption ∧
        List.Forall₂ (Renews d q.columnNames first)
          (items.filter fun item => !item.isHollow) written ∧
        f.text = plain.text ++ (if written.isEmpty then ""
          else " ON DUPLICATE KEY UPDATE " ++
            String.intercalate "," (written.map Fragment.text)) ∧
        f.bindings = plain.bindings ++ written.flatMap Fragment.bindings ∧
        (f.text = plain.text ↔ ∀ item ∈ items, item.isHollow = true) := by
  obtain ⟨first, refresh, hfirst, hrefresh, rfl⟩ := sql_eq_rows h
  rw [hitems, Option.getD_some] at hrefresh
  obtain ⟨written, hwritten, rfl⟩ := refreshClause_eq_ok hrefresh
  obtain ⟨rest, htuples⟩ : ∃ rest, q.tuples = first.entries q.columnNames :: rest := by
    obtain ⟨rest, hrows⟩ := List.head?_eq_some_iff.1 hfirst
    exact ⟨rest.map (Row.entries q.columnNames), by rw [tuples, hrows, List.map_cons]⟩
  have hshown : written.isEmpty = true ↔ ∀ item ∈ items, item.isHollow = true := by
    rw [List.isEmpty_iff, ← List.length_eq_zero_iff, ← hwritten.length_eq]
    simp [List.filter_eq_nil_iff]
  refine ⟨q.nodup_columnNames, _, rest, _, written, htuples, sql_withoutRenewal hd h, rfl, rfl,
    hwritten, ?_, ?_, ?_⟩
  · rw [joined_tuples hd]
    rfl
  · rw [joined_tuples hd]
    rfl
  · rw [← hshown, joined_tuples hd]
    by_cases hnone : written.isEmpty = true
    · simp [hnone]
    · simp [hnone]

/-- The first row names one of its columns twice and lacks another. -/
def restocked : Insert :=
  { ofTable "stock" with
    rows :=
      [⟨[("sku", .value (.string "A")), ("note", .default), ("sku", .value (.string "B"))]⟩,
        ⟨[("hits", .value (.int 4)), ("sku", .value (.string "C"))]⟩]
    onDuplicate := some
      [.column "hits", .raw ⟨"", [.int 9]⟩, .column "sku", .raw ⟨"n = n + ?", [.int 1]⟩] }

theorem sql_renewal_restocked :
    ∃ f plain written, restocked.sql .mysql = .ok f ∧
      ({ restocked with onDuplicate := none } : Insert).sql .mysql = .ok plain ∧
      plain.text = "INSERT INTO \x60stock\x60 (\x60sku\x60,\x60note\x60,\x60hits\x60) VALUES " ++
        "(?,DEFAULT,DEFAULT),(?,DEFAULT,?)" ∧
      plain.bindings = [.string "A", .string "C", .int 4] ∧
      List.Forall₂ (Renews .mysql ["sku", "note", "hits"] [some (.string "A"), none, none])
        [.column "hits", .column "sku", .raw ⟨"n = n + ?", [.int 1]⟩] written ∧
      f.text = plain.text ++
        " ON DUPLICATE KEY UPDATE \x60hits\x60 = DEFAULT,\x60sku\x60 = ?,n = n + ?" ∧
      f.bindings = plain.bindings ++ [.string "A", .int 1] ∧ f.text ≠ plain.text := by
  have hsql : restocked.sql .mysql = .ok (restocked.layout.write .mysql) :=
    (Query.sql_eq_ok_iff Dialect.visible_mysql (q := .insert restocked)).2 ⟨rfl, rfl⟩
  have hcolumns : restocked.columnNames = ["sku", "note", "hits"] := by decide +kernel
  have htuples : restocked.tuples =
      [[some (.string "A"), none, none], [some (.string "C"), none, some (.int 4)]] := by
    rw [tuples, hcolumns]
    rfl
  obtain ⟨-, first, rest, plain, written, hfirst, hplain, htext, hbindings, hwritten, -, -,
    habsent⟩ := sql_renewal Dialect.visible_mysql rfl hsql
  obtain ⟨rfl, rfl⟩ := List.cons.inj (htuples.symm.trans hfirst)
  rw [htuples] at htext hbindings
  rw [hcolumns] at hwritten
  have hplainText : plain.text =
      "INSERT INTO \x60stock\x60 (\x60sku\x60,\x60note\x60,\x60hits\x60) VALUES " ++
        "(?,DEFAULT,DEFAULT),(?,DEFAULT,?)" := htext.trans (by decide +kernel)
  refine ⟨_, plain, written, hsql, hplain, hplainText, hbindings, hwritten, ?_, ?_, ?_⟩
  · rw [hplainText]
    decide +kernel
  · rw [hbindings]
    rfl
  · intro heq
    exact absurd (habsent.1 heq (.column "hits") (List.mem_cons_self ..)) (by decide)

end Insert
end BoundSql
