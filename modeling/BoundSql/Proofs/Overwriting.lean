import BoundSql.Proofs.Renewal

/-!
# Columns that are set twice

A row is made by calls, each of which gives a cell to a column. All calls are kept, and the first
one for a column is the one that is written. So an insertion is written as if the last call counted
exactly if the first and the last call for each column are written alike.
-/
namespace BoundSql

open Fragment

/-! ## First appearances in joined lists -/

section
variable {α β : Type} [DecidableEq α]

theorem List.eraseDups_append_eraseDups (as bs : List α) :
    (as ++ bs.eraseDups).eraseDups = (as ++ bs).eraseDups := by
  induction bs using List.reverseRecOn with
  | nil => rfl
  | append_singleton bs b ih =>
    rw [← List.append_assoc, List.eraseDups_concat (as ++ bs), List.eraseDups_concat bs, ← ih]
    by_cases hb : b ∈ bs
    · simp [hb]
    · rw [if_neg hb, ← List.append_assoc, List.eraseDups_concat]
      simp [hb]

theorem List.eraseDups_eraseDups_append (as bs : List α) :
    (as.eraseDups ++ bs).eraseDups = (as ++ bs).eraseDups := by
  induction bs using List.reverseRecOn with
  | nil => simpa using List.eraseDups_append_eraseDups [] as
  | append_singleton bs b ih =>
    rw [← List.append_assoc, ← List.append_assoc, List.eraseDups_concat, List.eraseDups_concat, ih]
    simp

/-- What appears twice in a part may be left out there. -/
theorem List.eraseDups_flatMap_eraseDups (f : β → List α) (bs : List β) :
    (bs.flatMap fun b => (f b).eraseDups).eraseDups = (bs.flatMap f).eraseDups := by
  induction bs with
  | nil => rfl
  | cons b rest ih =>
    rw [List.flatMap_cons, List.flatMap_cons, List.eraseDups_eraseDups_append,
      ← List.eraseDups_append_eraseDups (f b), ih, List.eraseDups_append_eraseDups]

end

/-! ## Rows made by calls -/

namespace Row

/-- The row that calls make. -/
def build (calls : List (String × Cell)) : Row :=
  calls.foldl (fun r call => r.set call.1 call.2) empty

/-- The cells that calls give to a column. -/
def given (column : String) (calls : List (String × Cell)) : List Cell :=
  (calls.filter fun call => call.1 == column).map Prod.snd

/-- A cell takes the place of the one that its column has. -/
def overwrite (column : String) (cell : Cell) : List (String × Cell) → List (String × Cell)
  | [] => [(column, cell)]
  | field :: rest =>
    if field.1 = column then (column, cell) :: rest else field :: overwrite column cell rest

/-- The row that the calls would make if each one overwrote those before it, as in an update. -/
def overwritten (calls : List (String × Cell)) : Row :=
  ⟨calls.foldl (fun fields call => overwrite call.1 call.2 fields) []⟩

theorem build_concat (calls : List (String × Cell)) (call : String × Cell) :
    build (calls ++ [call]) = (build calls).set call.1 call.2 :=
  List.foldl_concat ..

theorem overwritten_concat (calls : List (String × Cell)) (call : String × Cell) :
    overwritten (calls ++ [call]) = ⟨overwrite call.1 call.2 (overwritten calls).fields⟩ :=
  congrArg mk (List.foldl_concat ..)

theorem given_concat (column : String) (calls : List (String × Cell)) (call : String × Cell) :
    given column (calls ++ [call]) =
      given column calls ++ if call.1 = column then [call.2] else [] := by
  by_cases h : call.1 = column <;> simp [given, h]

/-! ### What a call changes -/

theorem fields_build (calls : List (String × Cell)) : (build calls).fields = calls := by
  induction calls using List.reverseRecOn with
  | nil => rfl
  | append_singleton calls call ih => rw [build_concat, set, ih]

theorem names_overwrite (column : String) (cell : Cell) (fields : List (String × Cell)) :
    (overwrite column cell fields).map Prod.fst =
      if column ∈ fields.map Prod.fst then fields.map Prod.fst
      else fields.map Prod.fst ++ [column] := by
  induction fields with
  | nil => rfl
  | cons field rest ih =>
    by_cases h : field.1 = column
    · simp [overwrite, h]
    · rw [overwrite, if_neg h, List.map_cons, ih, List.map_cons]
      by_cases hrest : column ∈ rest.map Prod.fst
      · rw [if_pos hrest, if_pos (List.mem_cons_of_mem _ hrest)]
      · rw [if_neg hrest, if_neg (List.not_mem_cons_of_ne_of_not_mem (Ne.symm h) hrest),
          List.cons_append]

theorem lookup_field (other : String) (field : String × Cell) (rest : List (String × Cell)) :
    (field :: rest).lookup other = if field.1 = other then some field.2 else rest.lookup other := by
  rw [List.lookup_cons]
  by_cases h : field.1 = other
  · simp [h]
  · simp [h, beq_eq_false_iff_ne.2 (Ne.symm h)]

theorem lookup_overwrite (column other : String) (cell : Cell) (fields : List (String × Cell)) :
    (overwrite column cell fields).lookup other =
      if column = other then some cell else fields.lookup other := by
  induction fields with
  | nil => exact lookup_field other (column, cell) []
  | cons field rest ih =>
    by_cases hname : field.1 = column
    · rw [overwrite, if_pos hname, lookup_field, lookup_field, hname]
      by_cases h : column = other <;> simp [h]
    · rw [overwrite, if_neg hname, lookup_field, lookup_field, ih]
      by_cases h : column = other
      · simp [h, h ▸ hname]
      · simp [h]

/-! ### What a run of calls makes -/

theorem lookup_calls (column : String) (calls : List (String × Cell)) :
    calls.lookup column = (given column calls).head? := by
  induction calls with
  | nil => rfl
  | cons call rest ih =>
    rw [lookup_field, ih]
    by_cases h : call.1 = column <;> simp [given, h]

/-- The first call for a column is the one that counts. -/
theorem cell_build (column : String) (calls : List (String × Cell)) :
    (build calls).cell column = (given column calls).head?.getD .default := by
  rw [cell, fields_build, lookup_calls]

/-- If calls overwrite, the last one counts. -/
theorem cell_overwritten (column : String) (calls : List (String × Cell)) :
    (overwritten calls).cell column = (given column calls).getLast?.getD .default := by
  rw [cell]
  congr 1
  induction calls using List.reverseRecOn with
  | nil => rfl
  | append_singleton calls call ih =>
    rw [overwritten_concat, lookup_overwrite, given_concat, ih]
    by_cases h : call.1 = column <;> simp [h]

/-- Overwriting leaves a column where it first appeared. -/
theorem columnNames_overwritten (calls : List (String × Cell)) :
    (overwritten calls).columnNames = (build calls).columnNames.eraseDups := by
  rw [columnNames, columnNames, fields_build]
  induction calls using List.reverseRecOn with
  | nil => rfl
  | append_singleton calls call ih =>
    rw [overwritten_concat, names_overwrite, ih, List.map_append, List.map_singleton,
      List.eraseDups_concat]
    simp only [List.mem_eraseDups]

end Row

/-! ## What is written for a cell -/

/-- The value that is bound for a cell, or none for the default. -/
def Cell.entry (c : Cell) : Option Value := c.value?.map Value.binding

theorem Cell.sql_congr {s : Scope} {c c' : Cell} (h : c.entry = c'.entry) : c.sql s = c'.sql s := by
  cases c <;> cases c' <;> simp_all [entry, value?, sql, bound]

theorem Row.entries_eq (columns : List String) (r : Row) :
    r.entries columns = columns.map fun c => (r.cell c).entry :=
  List.map_congr_left fun c _ => by rw [Cell.entry, Row.value?_cell]

/-- The entries of a row for which a choice is made among the cells given to each column. -/
def Row.chosen (choose : List Cell → Option Cell) (columns : List String)
    (calls : List (String × Cell)) : List (Option Value) :=
  columns.map fun c => ((choose (given c calls)).getD .default).entry

theorem Row.entries_build (columns : List String) (calls : List (String × Cell)) :
    (build calls).entries columns = chosen List.head? columns calls := by
  rw [entries_eq]
  exact List.map_congr_left fun c _ => congrArg Cell.entry (cell_build c calls)

theorem Row.entries_overwritten (columns : List String) (calls : List (String × Cell)) :
    (overwritten calls).entries columns = chosen List.getLast? columns calls := by
  rw [entries_eq]
  exact List.map_congr_left fun c _ => congrArg Cell.entry (cell_overwritten c calls)

/-! ## Tuples are read back -/

section
variable {β : Type} {R : β → Prop}

/-- Parts that can be cut off from whatever follows them can be cut off from their join. -/
theorem intercalate_cut {f g : β → String} (separator : String) {xs : List β}
    (hcut : ∀ x ∈ xs, ∀ s t, f x ++ s = g x ++ t → R x ∧ s = t) {s t : String}
    (h : String.intercalate separator (xs.map f) ++ s =
      String.intercalate separator (xs.map g) ++ t) :
    (∀ x ∈ xs, R x) ∧ s = t := by
  induction xs with
  | nil => simpa using h
  | cons x rest ih =>
    have hrest := ih fun y hy => hcut y (List.mem_cons_of_mem _ hy)
    have hx := hcut x (List.mem_cons_self ..)
    cases rest with
    | nil => simpa using hx s t (by simpa using h)
    | cons y rest =>
      have hcons : ∀ k : β → String, String.intercalate separator ((x :: y :: rest).map k) =
          k x ++ (separator ++ String.intercalate separator ((y :: rest).map k)) := by
        intro k
        rw [List.map_cons, String.intercalate_cons_of_ne_nil (by simp), String.append_assoc]
      simp only [hcons, String.append_assoc] at h
      obtain ⟨hR, htail⟩ := hx _ _ h
      obtain ⟨hall, hst⟩ := hrest ((String.append_right_inj _).1 htail)
      exact ⟨List.forall_mem_cons.2 ⟨hR, hall⟩, hst⟩

/-- The same of lists. -/
theorem flatMap_cut {α : Type} {f g : β → List α} {xs : List β}
    (hcut : ∀ x ∈ xs, ∀ s t, f x ++ s = g x ++ t → R x ∧ s = t) {s t : List α}
    (h : xs.flatMap f ++ s = xs.flatMap g ++ t) : (∀ x ∈ xs, R x) ∧ s = t := by
  induction xs with
  | nil => simpa using h
  | cons x rest ih =>
    simp only [List.flatMap_cons, List.append_assoc] at h
    obtain ⟨hR, htail⟩ := hcut x (List.mem_cons_self ..) _ _ h
    obtain ⟨hall, hst⟩ := ih (fun y hy => hcut y (List.mem_cons_of_mem _ hy)) htail
    exact ⟨List.forall_mem_cons.2 ⟨hR, hall⟩, hst⟩

end

section
variable {d : Dialect} (hclash : ∀ s t, d.placeholder ++ s ≠ "DEFAULT" ++ t)
include hclash

/-- Whatever follows an entry, its text tells whether a value is bound. -/
theorem entryText_cut {e e' : Option Value} {s t : String}
    (h : entryText d e ++ s = entryText d e' ++ t) : e.isSome = e'.isSome ∧ s = t := by
  cases e with
  | none =>
    cases e' with
    | none => exact ⟨rfl, (String.append_right_inj _).1 h⟩
    | some v => exact absurd h.symm (hclash t s)
  | some v =>
    cases e' with
    | none => exact absurd h (hclash s t)
    | some w => exact ⟨rfl, (String.append_right_inj _).1 h⟩

theorem tupleText_cut {columns : List String} {e e' : String → Option Value} {s t : String}
    (h : tupleText d (columns.map e) ++ s = tupleText d (columns.map e') ++ t) :
    (∀ c ∈ columns, (e c).isSome = (e' c).isSome) ∧ s = t := by
  simp only [tupleText, List.map_map, String.append_assoc] at h
  obtain ⟨hsome, hrest⟩ := intercalate_cut (f := entryText d ∘ e) (g := entryText d ∘ e') ","
    (fun c _ s t hst => entryText_cut hclash hst) ((String.append_right_inj _).1 h)
  exact ⟨hsome, (String.append_right_inj _).1 hrest⟩

/-- Rows of tuples are determined by their text and their values, whatever stands behind them. -/
theorem tuples_cut {β : Type} {columns : List String} {rows : List β}
    {e e' : β → String → Option Value} {s t : String} {vs ws : List Value}
    (htext : String.intercalate "," (rows.map fun r => tupleText d (columns.map (e r))) ++ s =
      String.intercalate "," (rows.map fun r => tupleText d (columns.map (e' r))) ++ t)
    (hbindings : (rows.flatMap fun r => (columns.map (e r)).reduceOption) ++ vs =
      (rows.flatMap fun r => (columns.map (e' r)).reduceOption) ++ ws) :
    ∀ r ∈ rows, ∀ c ∈ columns, e r c = e' r c := by
  obtain ⟨hsome, -⟩ := intercalate_cut "," (fun r _ s t hst => tupleText_cut hclash hst) htext
  refine (flatMap_cut (fun r hr vs ws hvs => ?_) hbindings).1
  simp only [List.reduceOption, List.filterMap_eq_flatMap_toList, List.flatMap_map] at hvs
  refine flatMap_cut (fun c hc vs ws hvs => ?_) hvs
  have hc := hsome r hr c hc
  revert hvs hc
  simp only [id]
  cases e r c <;> cases e' r c <;> simp

end

/-! ## Insertions -/

namespace Insert

section
variable (q : Insert) (runs : List (List (String × Cell)))

/-- The insertion of the rows that runs of calls make. -/
def kept : Insert := { q with rows := runs.map Row.build }

/-- The insertion of the rows that the runs would make if calls overwrote those before them. -/
def replaced : Insert := { q with rows := runs.map Row.overwritten }

theorem columnNames_replaced : (q.replaced runs).columnNames = (q.kept runs).columnNames := by
  simp only [columnNames, replaced, kept, List.flatMap_map]
  rw [← List.eraseDups_flatMap_eraseDups (fun calls => (Row.build calls).fields.map (·.1)) runs]
  exact congrArg List.eraseDups
    (List.flatMap_congr fun calls _ => Row.columnNames_overwritten calls)

theorem fails_replaced (d : Dialect) :
    Fails ((q.replaced runs).sql d) ↔ Fails ((q.kept runs).sql d) := by
  have hnames : ∀ c, (q.replaced runs).Names c ↔ (q.kept runs).Names c := by
    intro c
    rw [← mem_columnNames, columnNames_replaced, mem_columnNames]
  have hrows : (q.replaced runs).rows = [] ↔ (q.kept runs).rows = [] := by
    simp [replaced, kept]
  rw [fails_sql, fails_sql, IsRefused, IsRefused, hrows]
  simp only [hnames]
  rfl

theorem tuples_kept : (q.kept runs).tuples =
    runs.map (Row.chosen List.head? (q.kept runs).columnNames) := by
  rw [tuples, kept, List.map_map]
  exact List.map_congr_left fun calls _ => Row.entries_build _ calls

theorem tuples_replaced : (q.replaced runs).tuples =
    runs.map (Row.chosen List.getLast? (q.kept runs).columnNames) := by
  rw [tuples, columnNames_replaced, replaced, List.map_map]
  exact List.map_congr_left fun calls _ => Row.entries_overwritten _ calls

theorem opening_replaced (d : Dialect) :
    (q.replaced runs).opening d = (q.kept runs).opening d := by
  rw [opening, opening, columnNames_replaced]
  rfl

end

/-- Whether the first and the last call for a column are written alike in every row. -/
def ChoosesAlike (runs : List (List (String × Cell))) : Prop :=
  ∀ calls ∈ runs, ∀ c,
    ((Row.given c calls).head?.getD .default).entry =
      ((Row.given c calls).getLast?.getD .default).entry

section
variable {d : Dialect} {q : Insert} {runs : List (List (String × Cell))}

/-- Cells that are written alike make the same tuples and the same clause behind them. -/
theorem sql_congr (h : ChoosesAlike runs) {f g : Fragment} (hf : (q.kept runs).sql d = .ok f)
    (hg : (q.replaced runs).sql d = .ok g) : f = g := by
  have hcell : ∀ calls ∈ runs, ∀ c, ((Row.build calls).cell c).sql ⟨d, none⟩ =
      ((Row.overwritten calls).cell c).sql ⟨d, none⟩ := by
    intro calls hcalls c
    rw [Row.cell_build, Row.cell_overwritten]
    exact Cell.sql_congr (h calls hcalls c)
  obtain ⟨first, refresh, hfirst, hrefresh, rfl⟩ := sql_eq_rows hf
  obtain ⟨first', refresh', hfirst', hrefresh', rfl⟩ := sql_eq_rows hg
  have htuples : (q.kept runs).rows.map (tupleSql ⟨d, none⟩ (q.kept runs).columnNames) =
      (q.replaced runs).rows.map (tupleSql ⟨d, none⟩ (q.replaced runs).columnNames) := by
    rw [columnNames_replaced, kept, replaced, List.map_map, List.map_map]
    refine List.map_congr_left fun calls hcalls => ?_
    simp only [Function.comp_apply, tupleSql, hcell calls hcalls]
  have hclause : refresh = refresh' := by
    cases runs with
    | nil => cases hfirst
    | cons calls rest =>
      obtain rfl := Option.some.inj hfirst
      obtain rfl := Option.some.inj hfirst'
      have hitem : refreshSql ⟨d, none⟩ (q.kept (calls :: rest)).columnNames (.build calls) =
          refreshSql ⟨d, none⟩ (q.kept (calls :: rest)).columnNames (.overwritten calls) := by
        funext item
        cases item with
        | column c => simp only [refreshSql, hcell calls (List.mem_cons_self ..)]
        | raw r => rfl
      rw [columnNames_replaced, refreshClause, ← hitem] at hrefresh'
      exact Except.ok.inj (hrefresh.symm.trans hrefresh')
  rw [htuples, hclause, opening_replaced]

/-- A written insertion begins with its tuples. -/
theorem sql_eq_tuples (hd : d.Visible) {f : Fragment} (h : q.sql d = .ok f) :
    ∃ clause : Fragment, f = ⟨q.opening d ++ String.intercalate "," (q.tuples.map (tupleText d)) ++
      clause.text, q.tuples.flatMap List.reduceOption ++ clause.bindings⟩ := by
  obtain ⟨first, refresh, -, -, rfl⟩ := sql_eq_rows h
  rw [joined_tuples hd]
  exact ⟨refresh, rfl⟩

end

/-- A column that no call names is left to its default. -/
theorem given_of_notMem {q : Insert} {runs : List (List (String × Cell))}
    {calls : List (String × Cell)} (hcalls : calls ∈ runs) {c : String}
    (h : c ∉ (q.kept runs).columnNames) : Row.given c calls = [] := by
  rw [Row.given, List.map_eq_nil_iff, List.filter_eq_nil_iff]
  intro call hcall heq
  refine h (columnNames_subset (r := Row.build calls) (List.mem_map_of_mem hcalls) ?_)
  rw [Row.columnNames, Row.fields_build]
  exact List.mem_map.2 ⟨call, hcall, by simpa using heq⟩

/-- The rows of an insertion are made by runs of calls, each of which gives a cell to a column. In
the tuple of a row stands what the first call for a column has given to it. An insertion in which
each call overwrote those before it would be refused alike, and would have the same columns but
what the last call has given. Both are the same statement exactly if in every row the first and the
last call for each column are written alike. -/
theorem sql_overwritten {d : Dialect} (hd : d.Visible)
    (hclash : ∀ s t, d.placeholder ++ s ≠ "DEFAULT" ++ t) (q : Insert)
    (runs : List (List (String × Cell))) :
    (Fails ((q.replaced runs).sql d) ↔ Fails ((q.kept runs).sql d)) ∧
      ∀ f g, (q.kept runs).sql d = .ok f → (q.replaced runs).sql d = .ok g →
        let columns := (q.kept runs).columnNames
        let front := (q.kept runs).opening d
        let first := runs.map (Row.chosen List.head? columns)
        let last := runs.map (Row.chosen List.getLast? columns)
        (∃ clause : Fragment,
          f = ⟨front ++ String.intercalate "," (first.map (tupleText d)) ++ clause.text,
            first.flatMap List.reduceOption ++ clause.bindings⟩) ∧
        (∃ clause : Fragment,
          g = ⟨front ++ String.intercalate "," (last.map (tupleText d)) ++ clause.text,
            last.flatMap List.reduceOption ++ clause.bindings⟩) ∧
        (f = g ↔ ChoosesAlike runs) := by
  refine ⟨fails_replaced q runs d, ?_⟩
  intro f g hf hg columns front first last
  obtain ⟨clause, hfirst⟩ := sql_eq_tuples hd hf
  obtain ⟨clause', hlast⟩ := sql_eq_tuples hd hg
  rw [tuples_kept] at hfirst
  rw [tuples_replaced, opening_replaced] at hlast
  refine ⟨⟨clause, hfirst⟩, ⟨clause', hlast⟩, fun heq calls hcalls c => ?_, fun h =>
    sql_congr h hf hg⟩
  by_cases hc : c ∈ columns
  · rw [hfirst, hlast, Fragment.mk.injEq] at heq
    obtain ⟨htext, hbindings⟩ := heq
    simp only [String.append_assoc, String.append_right_inj, List.map_map] at htext
    simp only [List.flatMap_map] at hbindings
    exact tuples_cut hclash htext hbindings calls hcalls c hc
  · rw [given_of_notMem hcalls hc]
    rfl

/-- A placeholder of an ordinary dialect is not the beginning of a default. -/
theorem placeholder_mysql_clash (s t : String) :
    Dialect.mysql.placeholder ++ s ≠ "DEFAULT" ++ t := by
  intro h
  simpa [Dialect.mysql] using congrArg String.toList h

/-- Two calls for one column, the first of which leaves it to its default, and two for another one
that are written alike. -/
def correctedRuns : List (List (String × Cell)) :=
  [[("sku", .default), ("tags", .value (.string "a,b")), ("sku", .value (.int 7)),
    ("tags", .value (.list [.string "a", .string "b"]))]]

theorem sql_overwritten_correctedRuns :
    ∃ f g, ((ofTable "stock").kept correctedRuns).sql .mysql = .ok f ∧
      ((ofTable "stock").replaced correctedRuns).sql .mysql = .ok g ∧
      (f = g ↔ ChoosesAlike correctedRuns) ∧ ¬ ChoosesAlike correctedRuns ∧
      ((ofTable "stock").kept correctedRuns).columnNames = ["sku", "tags"] ∧
      correctedRuns.map (Row.chosen List.head? ["sku", "tags"]) = [[none, some (.string "a,b")]] ∧
      correctedRuns.map (Row.chosen List.getLast? ["sku", "tags"]) =
        [[some (.int 7), some (.string "a,b")]] ∧
      f.bindings = [.string "a,b"] ∧ g.bindings = [.int 7, .string "a,b"] := by
  have hkept : ((ofTable "stock").kept correctedRuns).sql .mysql =
      .ok (((ofTable "stock").kept correctedRuns).layout.write .mysql) :=
    (Query.sql_eq_ok_iff Dialect.visible_mysql
      (q := .insert ((ofTable "stock").kept correctedRuns))).2 ⟨rfl, rfl⟩
  have hreplaced : ((ofTable "stock").replaced correctedRuns).sql .mysql =
      .ok (((ofTable "stock").replaced correctedRuns).layout.write .mysql) :=
    (Query.sql_eq_ok_iff Dialect.visible_mysql
      (q := .insert ((ofTable "stock").replaced correctedRuns))).2 ⟨rfl, rfl⟩
  have hcolumns : ((ofTable "stock").kept correctedRuns).columnNames = ["sku", "tags"] := by
    decide +kernel
  obtain ⟨-, hboth⟩ := sql_overwritten Dialect.visible_mysql placeholder_mysql_clash
    (ofTable "stock") correctedRuns
  obtain ⟨-, -, hiff⟩ := hboth _ _ hkept hreplaced
  refine ⟨_, _, hkept, hreplaced, hiff, fun h => ?_, hcolumns, rfl, rfl, rfl, rfl⟩
  simpa [correctedRuns, Row.given, Cell.entry, Cell.value?] using h _ (List.mem_cons_self ..) "sku"

/-- A row keeps the older value of a column, where an update takes the newer one. -/
theorem sql_kept_twice :
    ((ofTable "t").kept [[("a", .value (.int 1)), ("a", .value (.int 2))]]).sql .mysql =
        .ok ⟨"INSERT INTO \x60t\x60 (\x60a\x60) VALUES (?)", [.int 1]⟩ ∧
      ((Update.ofTable "t").build [.set "a" (.int 1), .set "a" (.int 2)]).sql .mysql =
        .ok ⟨"UPDATE \x60t\x60 SET \x60a\x60 = ?", [.int 2]⟩ := by
  constructor
  · exact (Query.sql_eq_ok_iff Dialect.visible_mysql (q := .insert
      ((ofTable "t").kept [[("a", .value (.int 1)), ("a", .value (.int 2))]]))).2
      ⟨rfl, Fragment.ext (by decide +kernel) rfl⟩
  · exact (Query.sql_eq_ok_iff Dialect.visible_mysql (q := .update
      ((Update.ofTable "t").build [.set "a" (.int 1), .set "a" (.int 2)]))).2
      ⟨rfl, Fragment.ext (by decide +kernel) rfl⟩

end Insert
end BoundSql
