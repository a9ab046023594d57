import BoundSql.Proofs.Layout.Query
import BoundSql.Proofs.Reload.Exact
import BoundSql.Proofs.Reload.Record
import BoundSql.Proofs.Renewal

/-!
# Statements in transit

A compiled statement is sent as JSON. Wherever a value is bound, it is first brought into the
driver's form, so no list is among the bindings; what remains is told apart by its document alone.
So text and bindings come back as they were sent, up to the sign of the integers.
-/
namespace BoundSql

/-! ## Bound values -/

namespace Fragment

/-- All values are in the driver's form. -/
def IsBound (f : Fragment) : Prop := ∀ v ∈ f.bindings, v.binding = v

theorem isBound_ofText (s : String) : (ofText s).IsBound := by simp [IsBound]

theorem isBound_bound (s : String) (values : List Value) : (bound s values).IsBound := by
  simp [IsBound, bound]

theorem IsBound.append {f g : Fragment} (hf : f.IsBound) (hg : g.IsBound) : (f ++ g).IsBound :=
  List.forall_mem_append.2 ⟨hf, hg⟩

theorem IsBound.push {f : Fragment} (hf : f.IsBound) (s : String) : (f.push s).IsBound :=
  hf.append (isBound_ofText s)

theorem IsBound.pushBound {f : Fragment} (hf : f.IsBound) (s : String) (v : Value) :
    (f.pushBound s v).IsBound :=
  hf.append (isBound_bound s [v])

/-- A join brings in no values of its own. -/
theorem isBound_joined (separator : String) {parts : List Fragment}
    (h : ∀ f ∈ parts, f.IsBound) : (joined separator parts).IsBound := by
  intro v hv
  obtain ⟨f, hf, hvf⟩ := List.mem_flatMap.1 hv
  exact h f (List.mem_filter.1 hf).1 v hvf

theorem IsBound.surrounded {f : Fragment} (hf : f.IsBound) (before after : String) :
    (f.surrounded before after).IsBound := by
  unfold Fragment.surrounded
  split
  · exact hf
  · exact ((isBound_ofText before).append hf).append (isBound_ofText after)

end Fragment

open Fragment

/-! ## Clauses -/

theorem RawSql.isBound_sql (r : RawSql) : r.sql.IsBound := isBound_bound r.text r.bindings

theorem Join.isBound_clause (s : Scope) (joins : List Join) : (Join.clause s joins).IsBound := by
  refine isBound_joined " " fun f hf => ?_
  obtain ⟨j, -, rfl⟩ := List.mem_map.1 hf
  cases j with
  | table => exact isBound_ofText _
  | raw kind r => exact (isBound_ofText _).append r.isBound_sql

theorem Grouping.isBound_clause (s : Scope) (groups : List Grouping) :
    (Grouping.clause s groups).IsBound := by
  refine (isBound_joined "," fun f hf => ?_).surrounded "GROUP BY " ""
  obtain ⟨g, -, rfl⟩ := List.mem_map.1 hf
  cases g with
  | column => exact isBound_ofText _
  | raw r => exact r.isBound_sql

theorem Limits.isBound_limitClause (s : Scope) (l : Limits) : (l.limitClause s).IsBound := by
  unfold limitClause
  split
  · exact (isBound_ofText _).pushBound _ _
  · exact isBound_ofText _

theorem Limits.isBound_clause (s : Scope) (l : Limits) : (l.clause s).IsBound := by
  simp only [clause]
  split
  · refine (IsBound.push ?_ _).pushBound _ _
    split
    · exact (isBound_ofText _).pushBound _ _
    · exact isBound_ofText _
  · split
    · exact (isBound_ofText _).pushBound _ _
    · exact isBound_ofText _

theorem SortKey.isBound_clause (s : Scope) (k : Option SortKey) :
    (SortKey.clause s k).IsBound := by
  cases k with
  | none => exact isBound_ofText _
  | some k => exact (((isBound_ofText _).pushBound _ _).push _).pushBound _ _

theorem Select.Body.isBound_sql (d : Dialect) (t : Target) {b : Body}
    (hcolumns : b.columns.IsBound) (hfilter : b.filter.IsBound) : (b.sql d t).IsBound := by
  have hlist : b.columnList.IsBound := by
    unfold columnList
    split
    · exact isBound_ofText _
    · exact hcolumns
  exact (((((((isBound_ofText _).append hlist).append (isBound_ofText _)).append
    ((Join.isBound_clause _ _).surrounded _ _)).append (hfilter.surrounded _ _)).append
    ((Grouping.isBound_clause _ _).surrounded _ _)).append (Limits.isBound_clause _ _)).append
    (SortKey.isBound_clause _ _)

theorem Recursion.isBound_sql {initial member : Fragment} (hinitial : initial.IsBound)
    (hmember : member.IsBound) : (Recursion.sql initial member).IsBound :=
  ((((isBound_ofText _).append hinitial).append (isBound_ofText _)).append hmember).append
    (isBound_ofText _)

theorem Recursion.isBound_memberColumns (s : Scope) (columns : List Expr)
    {rendered : List Fragment} (h : ∀ f ∈ rendered, f.IsBound) :
    (memberColumns s columns rendered).IsBound := by
  unfold memberColumns
  split
  · exact isBound_ofText _
  · exact isBound_joined "," h

/-! ## Expressions and queries -/

theorem Expr.isBound_comparisonSql {s : Scope} {c : ColumnName} {op : Operator} {value : Value}
    {f : Fragment} (h : comparisonSql s c op value = .ok f) : f.IsBound := by
  unfold comparisonSql at h
  split at h
  · split at h
    · obtain rfl := Except.ok.inj h
      exact isBound_ofText _
    · cases h
  · split at h
    · obtain rfl := Except.ok.inj h
      exact isBound_ofText _
    · cases h
  · obtain rfl := Except.ok.inj h
    exact isBound_ofText _
  · obtain rfl := Except.ok.inj h
    exact isBound_ofText _
  · obtain rfl := Except.ok.inj h
    exact (isBound_ofText _).pushBound _ _

theorem Expr.isBound_betweenSql (s : Scope) (c : ColumnName) (low high : Value) (negated : Bool) :
    (betweenSql s c low high negated).IsBound :=
  (((isBound_ofText _).pushBound _ _).push _).pushBound _ _

mutual

theorem Expr.isBound_sql {s : Scope} : (e : Expr) → {f : Fragment} → e.sql s = .ok f → f.IsBound
  | .raw raw, _, h | .rawColumn raw, _, h => by
    rw [Expr.sql] at h
    obtain rfl := Except.ok.inj h
    exact raw.isBound_sql
  | .column .., _, h | .aggregate .., _, h | .datePart .., _, h => by
    rw [Expr.sql] at h
    obtain rfl := Except.ok.inj h
    exact isBound_ofText _
  | .comparison .., _, h => by
    rw [Expr.sql] at h
    exact Expr.isBound_comparisonSql h
  | .between c low high negated, _, h => by
    rw [Expr.sql] at h
    obtain rfl := Except.ok.inj h
    exact Expr.isBound_betweenSql s c low high negated
  | .oneOf .., _, h => by
    rw [Expr.sql] at h
    obtain rfl := Except.ok.inj h
    exact isBound_bound _ _
  | .group filter, _, h => by
    rw [Expr.sql] at h
    obtain ⟨g, hg, hf⟩ := Except.bind_eq_ok.1 h
    obtain rfl := Except.ok.inj hf
    exact (Filter.isBound_sql filter hg).surrounded _ _
  | .existence query negated, _, h => by
    rw [Expr.sql] at h
    obtain ⟨g, hg, hf⟩ := Except.bind_eq_ok.1 h
    obtain rfl := Except.ok.inj hf
    exact ((isBound_ofText _).append (Select.isBound_sql query hg)).append (isBound_ofText _)

theorem Expr.isBound_sqls {s : Scope} : (es : List Expr) → {fs : List Fragment} →
    Expr.sqls s es = .ok fs → ∀ f ∈ fs, f.IsBound
  | [], _, h => by
    rw [Expr.sqls] at h
    obtain rfl := Except.ok.inj h
    exact List.forall_mem_nil _
  | e :: rest, _, h => by
    rw [Expr.sqls] at h
    obtain ⟨f, hf, hrest⟩ := Except.bind_eq_ok.1 h
    obtain ⟨fs, hfs, hall⟩ := Except.bind_eq_ok.1 hrest
    obtain rfl := Except.ok.inj hall
    exact List.forall_mem_cons.2 ⟨Expr.isBound_sql e hf, Expr.isBound_sqls rest hfs⟩

theorem Filter.isBound_sql {s : Scope} : (filter : Filter) → {f : Fragment} →
    filter.sql s = .ok f → f.IsBound
  | ⟨terms, connective⟩, _, h => by
    rw [Filter.sql] at h
    obtain ⟨fs, hfs, hf⟩ := Except.bind_eq_ok.1 h
    obtain rfl := Except.ok.inj hf
    exact isBound_joined _ (Expr.isBound_sqls terms hfs)

theorem Select.isBound_sql {d : Dialect} : (q : Select) → {f : Fragment} → q.sql d = .ok f →
    f.IsBound
  | ⟨table, schema, tableAlias, distinct, columns, filter, joins, groups, sort, limits,
      recursion⟩, _, h => by
    rw [Select.sql] at h
    obtain ⟨target, -, hrest⟩ := Except.bind_eq_ok.1 h
    obtain ⟨-, hrest⟩ := Except.guard_eq_ok.1 hrest
    cases recursion with
    | none =>
      obtain ⟨rendered, hrendered, hrest⟩ := Except.bind_eq_ok.1 hrest
      obtain ⟨predicates, hpredicates, hf⟩ := Except.bind_eq_ok.1 hrest
      obtain rfl := Except.ok.inj hf
      exact Select.Body.isBound_sql d target
        (isBound_joined "," (Expr.isBound_sqls columns hrendered))
        (Filter.isBound_sql filter hpredicates)
    | some r =>
      obtain ⟨⟨⟩, -, hrest⟩ := Except.bind_eq_ok.1 hrest
      obtain ⟨rendered, hrendered, hrest⟩ := Except.bind_eq_ok.1 hrest
      obtain ⟨predicates, hpredicates, hrest⟩ := Except.bind_eq_ok.1 hrest
      obtain ⟨again, hagain, hf⟩ := Except.bind_eq_ok.1 hrest
      obtain rfl := Except.ok.inj hf
      refine Recursion.isBound_sql ?_ ?_
      · exact Select.Body.isBound_sql d target
          (isBound_joined "," (Expr.isBound_sqls columns hrendered))
          (Filter.isBound_sql filter hpredicates)
      · exact Select.Body.isBound_sql d _ (Recursion.isBound_memberColumns _ columns
          (Expr.isBound_sqls columns hagain)) (isBound_ofText "")

end

/-! ## Statements of every kind -/

theorem Filter.isBound_clause {s : Scope} {filter : Filter} {f : Fragment}
    (h : filter.clause s = .ok f) : f.IsBound := by
  obtain ⟨g, hg, hf⟩ := Except.bind_eq_ok.1 h
  obtain rfl := Except.ok.inj hf
  exact (Filter.isBound_sql filter hg).surrounded _ _

theorem Cell.isBound_sql (s : Scope) (c : Cell) : (c.sql s).IsBound := by
  cases c with
  | default => exact isBound_ofText _
  | value v => exact isBound_bound _ _

namespace Insert

theorem isBound_tupleSql (s : Scope) (columns : List String) (r : Row) :
    (tupleSql s columns r).IsBound := by
  refine ((isBound_ofText _).append (isBound_joined "," fun f hf => ?_)).append (isBound_ofText _)
  obtain ⟨c, -, rfl⟩ := List.mem_map.1 hf
  exact (r.cell c).isBound_sql s

theorem isBound_refreshSql {s : Scope} {columns : List String} {first : Row} {item : Refresh}
    {f : Fragment} (h : refreshSql s columns first item = .ok f) : f.IsBound := by
  cases item with
  | raw r =>
    obtain rfl := Except.ok.inj h
    exact r.isBound_sql
  | column c =>
    rw [refreshSql] at h
    split at h
    · obtain rfl := Except.ok.inj h
      exact (isBound_ofText _).append ((first.cell c).isBound_sql s)
    · cases h

theorem isBound_refreshClause {s : Scope} {columns : List String} {first : Row}
    {items : List Refresh} {f : Fragment} (h : refreshClause s columns first items = .ok f) :
    f.IsBound := by
  obtain ⟨parts, hparts, hf⟩ := Except.bind_eq_ok.1 h
  have hwritten : List.Forall₂ (fun _ g => g.IsBound) items parts :=
    (Except.mapM_eq_ok.1 hparts).imp fun _ _ => isBound_refreshSql
  have hbound : ∀ g ∈ parts, g.IsBound := by
    clear hparts hf h
    induction hwritten with
    | nil => exact List.forall_mem_nil _
    | cons hg _ ih => exact List.forall_mem_cons.2 ⟨hg, ih⟩
  obtain rfl := Except.ok.inj hf
  exact (isBound_joined "," hbound).surrounded _ _

theorem isBound_sql {d : Dialect} {q : Insert} {f : Fragment} (h : q.sql d = .ok f) :
    f.IsBound := by
  obtain ⟨first, refresh, -, hrefresh, rfl⟩ := sql_eq_rows h
  refine ((isBound_ofText _).append (isBound_joined "," fun g hg => ?_)).append
    (isBound_refreshClause hrefresh)
  obtain ⟨r, -, rfl⟩ := List.mem_map.1 hg
  exact isBound_tupleSql _ _ r

end Insert

theorem Update.isBound_sql {d : Dialect} {q : Update} {f : Fragment} (h : q.sql d = .ok f) :
    f.IsBound := by
  obtain ⟨target, -, hrest⟩ := Except.bind_eq_ok.1 h
  obtain ⟨-, hrest⟩ := Except.guard_eq_ok.1 hrest
  obtain ⟨filter, hfilter, hf⟩ := Except.bind_eq_ok.1 hrest
  obtain rfl := Except.ok.inj hf
  refine ((isBound_ofText _).append (isBound_joined "," fun g hg => ?_)).append
    (Filter.isBound_clause hfilter)
  obtain ⟨a, -, rfl⟩ := List.mem_map.1 hg
  exact (isBound_ofText _).pushBound _ _

theorem Delete.isBound_sql {d : Dialect} {q : Delete} {f : Fragment} (h : q.sql d = .ok f) :
    f.IsBound := by
  obtain ⟨target, -, hrest⟩ := Except.bind_eq_ok.1 h
  split at hrest
  · obtain rfl := Except.ok.inj hrest
    exact isBound_ofText _
  · obtain ⟨filter, hfilter, hf⟩ := Except.bind_eq_ok.1 hrest
    obtain rfl := Except.ok.inj hf
    exact ((isBound_ofText _).append (Filter.isBound_clause hfilter)).append
      (Limits.isBound_limitClause _ _)

theorem CreateTable.isBound_sql {d : Dialect} {q : CreateTable} {f : Fragment}
    (h : q.sql d = .ok f) : f.IsBound := by
  obtain ⟨target, -, hrest⟩ := Except.bind_eq_ok.1 h
  obtain ⟨-, hrest⟩ := Except.guard_eq_ok.1 hrest
  obtain ⟨-, -, hrest⟩ := Except.bind_eq_ok.1 hrest
  obtain ⟨-, -, hf⟩ := Except.bind_eq_ok.1 hrest
  obtain rfl := Except.ok.inj hf
  exact isBound_ofText _

theorem CreateIndex.isBound_sql {d : Dialect} {q : CreateIndex} {f : Fragment}
    (h : q.sql d = .ok f) : f.IsBound := by
  obtain ⟨target, -, hrest⟩ := Except.bind_eq_ok.1 h
  obtain ⟨-, hrest⟩ := Except.guard_eq_ok.1 hrest
  obtain ⟨-, hf⟩ := Except.guard_eq_ok.1 hrest
  obtain rfl := Except.ok.inj hf
  exact isBound_ofText _

/-- Every path that binds a value brings it into the driver's form. -/
theorem Query.isBound_sql {d : Dialect} {q : Query} {f : Fragment} (h : q.sql d = .ok f) :
    f.IsBound := by
  cases q with
  | select q => exact Select.isBound_sql q h
  | insert q => exact Insert.isBound_sql h
  | update q => exact Update.isBound_sql h
  | delete q => exact Delete.isBound_sql h
  | createTable q => exact CreateTable.isBound_sql h
  | createIndex q => exact CreateIndex.isBound_sql h

/-! ## Fragments as documents -/

namespace Value

/-- Apart from lists, only doubles do not come back. -/
theorem isExact_of_binding {v : Value} (hbound : v.binding = v) (hfloat : ∀ x, v ≠ .float x) :
    v.isExact = true := by
  cases v with
  | float x => exact absurd rfl (hfloat x)
  | list members => exact absurd hbound (binding_ne_list _ members)
  | _ => rfl

theorem depth_toJson_le {v : Value} (hbound : v.binding = v) : v.toJson.depth ≤ 1 := by
  cases v with
  | list members => exact absurd hbound (binding_ne_list _ members)
  | float x =>
    rw [toJson, Json.ofBinary64]
    split <;> exact Nat.zero_le 1
  | dateTime | date => exact Nat.le_refl 1
  | _ => exact Nat.zero_le 1

end Value

namespace Json

theorem itemDepth_le {items : List Json} {n : Nat} (h : ∀ j ∈ items, j.depth ≤ n) :
    itemDepth items ≤ n := by
  induction items with
  | nil => exact Nat.zero_le n
  | cons j rest ih =>
    rw [List.forall_mem_cons] at h
    exact Nat.max_le.2 ⟨h.1, ih h.2⟩

end Json

namespace Fragment

theorem isExact_toJson {f : Fragment} (h : ∀ v ∈ f.bindings, v.isExact = true) :
    f.toJson.isExact = true := by
  simp [toJson, Value.isExact_list h]

theorem depth_toJson_le {f : Fragment} (h : f.IsBound) : f.toJson.depth ≤ 3 := by
  have hitems : Json.itemDepth (f.bindings.map Value.toJson) ≤ 1 := by
    refine Json.itemDepth_le fun j hj => ?_
    obtain ⟨v, hv, rfl⟩ := List.mem_map.1 hj
    exact Value.depth_toJson_le (h v hv)
  simp only [toJson, Json.ofList, Json.depth, Json.memberDepth]
  omega

theorem ofJson?_toJson {f : Fragment} (h : ∀ v ∈ f.bindings, v.isExact = true) :
    ofJson? f.toJson = some ⟨f.text, f.bindings.map Value.signed⟩ := by
  have hread : ofJson? f.toJson = (do
      return ⟨f.text, ← Value.listOfJson? (.ofList Value.toJson f.bindings)⟩) := rfl
  rw [hread, Value.listOfJson?_ofList h]
  rfl

end Fragment

/-- How a value comes back: an unsigned integer as a signed one if it fits, and any other value as
it is. -/
inductive Value.ComesBack : Value → Value → Prop
  | signed {n : UInt64} {i : Int64} (h : i.toInt = n.toNat) : ComesBack (.uint n) (.int i)
  | same {v : Value} (h : ∀ n, v = .uint n → 0x8000000000000000 ≤ n.toNat) : ComesBack v v

theorem Value.comesBack_signed {v : Value} (hbound : v.binding = v) : v.ComesBack v.signed := by
  cases v with
  | list members => exact absurd hbound (binding_ne_list _ members)
  | uint n =>
    rw [Value.signed]
    split
    · rename_i hle
      have hlt : n.toNat < 2 ^ 63 :=
        Nat.lt_of_le_of_lt (UInt64.le_iff_toNat_le.1 hle) (by decide)
      have hword : Int64.ofNat n.toNat = n.toInt64 :=
        congrArg UInt64.toInt64 (UInt64.ofNat_toNat ..)
      exact .signed (hword ▸ Int64.toInt_ofNat_of_lt hlt)
    · rename_i hlt
      refine .same fun m hm => ?_
      obtain rfl := Value.uint.inj hm
      rw [UInt64.le_iff_toNat_le] at hlt
      exact Nat.lt_of_not_le hlt
  | _ => exact .same fun n hn => by cases hn

/-- Whatever the dialect, no list is bound to a placeholder of a statement. If no double is, the
statement comes back from its compact and from its indented document with its text and its values,
each in its place: unsigned integers are signed if they fit, and all other values are the same. -/
theorem Query.sql_transmitted {d : Dialect} {q : Query} {f : Fragment} (h : q.sql d = .ok f) :
    (∀ v ∈ f.bindings, ∀ members, v ≠ .list members) ∧
      ((∀ v ∈ f.bindings, ∀ x, v ≠ .float x) → ∃ values,
        Fragment.parse? f.toJson.compact = some ⟨f.text, values⟩ ∧
        Fragment.parse? f.toJson.pretty = some ⟨f.text, values⟩ ∧
        List.Forall₂ Value.ComesBack f.bindings values) := by
  have hbound := Query.isBound_sql h
  refine ⟨fun v hv members hlist => ?_, fun hfloat => ?_⟩
  · exact v.binding_ne_list members ((hbound v hv).trans hlist)
  have hexact : ∀ v ∈ f.bindings, v.isExact = true :=
    fun v hv => Value.isExact_of_binding (hbound v hv) (hfloat v hv)
  have hdepth : f.toJson.depth ≤ Json.Reader.depthLimit :=
    Nat.le_trans (Fragment.depth_toJson_le hbound) (by decide)
  have hread := Fragment.ofJson?_toJson hexact
  refine ⟨f.bindings.map Value.signed, ?_, ?_, ?_⟩
  · rw [Fragment.parse?, Json.parse?_compact (Fragment.isExact_toJson hexact) hdepth]
    exact hread
  · rw [Fragment.parse?, Json.parse?_pretty (Fragment.isExact_toJson hexact) hdepth]
    exact hread
  · rw [List.forall₂_map_right_iff, List.forall₂_same]
    exact fun v hv => Value.comesBack_signed (hbound v hv)

/-- An update with a list of one text that reads as a date, a date, integers on both sides of the
signed range, and text that needs escapes. -/
def stampedLogs : Update :=
  { Update.ofTable "log\ns" with
    assignments :=
      [("day", .list [.string "2024-02-29"]), ("seen", .date ⟨2024, 3, 1, by decide⟩),
        ("small", .uint 7), ("large", .uint 18446744073709551615)]
    filter := ⟨[.oneOf (.plain "note") [.string "2024-02-29", .null] false], .and⟩ }

theorem Query.sql_transmitted_stampedLogs :
    ∃ f values, (Query.update stampedLogs).sql .mysql = .ok f ∧
      f.bindings = [.string "2024-02-29", .date ⟨2024, 3, 1, by decide⟩, .uint 7,
        .uint 18446744073709551615, .string "2024-02-29", .null] ∧
      (∀ v ∈ f.bindings, ∀ x, v ≠ .float x) ∧
      Fragment.parse? f.toJson.compact = some ⟨f.text, values⟩ ∧
      Fragment.parse? f.toJson.pretty = some ⟨f.text, values⟩ ∧
      List.Forall₂ Value.ComesBack f.bindings values ∧
      values.head? = some (.string "2024-02-29") := by
  have hsql : (Query.update stampedLogs).sql .mysql = .ok (stampedLogs.layout.write .mysql) :=
    (Query.sql_eq_ok_iff Dialect.visible_mysql (q := .update stampedLogs)).2 ⟨rfl, rfl⟩
  have hbindings : (stampedLogs.layout.write .mysql).bindings =
      [.string "2024-02-29", .date ⟨2024, 3, 1, by decide⟩, .uint 7,
        .uint 18446744073709551615, .string "2024-02-29", .null] := rfl
  have hfloat : ∀ v ∈ (stampedLogs.layout.write .mysql).bindings, ∀ x, v ≠ .float x := by
    rw [hbindings]
    simp
  obtain ⟨values, hcompact, hpretty, hback⟩ := (Query.sql_transmitted hsql).2 hfloat
  refine ⟨_, values, hsql, hbindings, hfloat, hcompact, hpretty, hback, ?_⟩
  rw [hbindings] at hback
  obtain ⟨v, rest, hv, -, rfl⟩ := List.forall₂_cons_left_iff.1 hback
  cases hv
  rfl

end BoundSql
