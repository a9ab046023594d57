import BoundSql.Proofs.Reload.Loaded

/-!
# Statements loaded again

A statement that was loaded from any spelling of a document is written in one spelling, and loading
that gives the same statement: signing its integers changes nothing, as they have been signed.
-/
namespace BoundSql

open Json

theorem List.map_eq_self {α : Type} {g : α → α} {as : List α} (h : ∀ a ∈ as, g a = a) :
    as.map g = as := (List.map_congr_left h).trans (List.map_id as)

theorem Option.map_eq_self {α : Type} {g : α → α} {a : Option α} (h : ∀ b ∈ a, g b = b) :
    a.map g = a := by
  cases a with
  | none => rfl
  | some b => exact congrArg some (h b rfl)

section
variable {f : Value → Value}

/-! ## Statements with the same values -/

theorem RawSql.mapValues_eq_self {r : RawSql} (h : ∀ v ∈ r.bindings, f v = v) :
    r.mapValues f = r := by
  rw [mapValues, List.map_eq_self h]

theorem Join.mapValues_eq_self {j : Join} (h : ∀ v ∈ j.allValues, f v = v) :
    j.mapValues f = j := by
  cases j with
  | table kind joined tableAlias primaryKey foreignKey => rfl
  | raw kind sql => rw [mapValues, RawSql.mapValues_eq_self h]

theorem Grouping.mapValues_eq_self {g : Grouping} (h : ∀ v ∈ g.allValues, f v = v) :
    g.mapValues f = g := by
  cases g with
  | column c => rfl
  | raw sql => rw [mapValues, RawSql.mapValues_eq_self h]

mutual

theorem Expr.mapValues_eq_self : (e : Expr) → (∀ v ∈ e.allValues, f v = v) → e.mapValues f = e
  | .raw sql, h | .rawColumn sql, h => by
    rw [Expr.allValues] at h
    rw [Expr.mapValues, RawSql.mapValues_eq_self h]
  | .column c label, _ | .aggregate function c label, _ | .datePart part c label, _ => by
    rw [Expr.mapValues]
  | .comparison c op value, h => by
    rw [Expr.allValues, List.forall_mem_singleton] at h
    rw [Expr.mapValues, h]
  | .between c low high negated, h => by
    rw [Expr.allValues, List.forall_mem_cons, List.forall_mem_singleton] at h
    rw [Expr.mapValues, h.1, h.2]
  | .oneOf c values negated, h => by
    rw [Expr.allValues] at h
    rw [Expr.mapValues, List.map_eq_self h]
  | .group filter, h => by
    rw [Expr.allValues] at h
    rw [Expr.mapValues, Filter.mapValues_eq_self filter h]
  | .existence query negated, h => by
    rw [Expr.allValues] at h
    rw [Expr.mapValues, Select.mapValues_eq_self query h]

theorem Expr.mapListValues_eq_self : (es : List Expr) → (∀ v ∈ Expr.listValues es, f v = v) →
    Expr.mapListValues f es = es
  | [], _ => by rw [Expr.mapListValues]
  | e :: rest, h => by
    rw [Expr.listValues, List.forall_mem_append] at h
    rw [Expr.mapListValues, Expr.mapValues_eq_self e h.1, Expr.mapListValues_eq_self rest h.2]

theorem Filter.mapValues_eq_self : (filter : Filter) → (∀ v ∈ filter.allValues, f v = v) →
    filter.mapValues f = filter
  | ⟨terms, connective⟩, h => by
    rw [Filter.allValues] at h
    rw [Filter.mapValues, Expr.mapListValues_eq_self terms h]

theorem Select.mapValues_eq_self : (q : Select) → (∀ v ∈ q.allValues, f v = v) →
    q.mapValues f = q
  | ⟨table, schema, tableAlias, distinct, columns, filter, joins, groups, sort, limits,
      recursion⟩, h => by
    rw [Select.allValues, List.forall_mem_append, List.forall_mem_append, List.forall_mem_append,
      List.forall_mem_flatMap, List.forall_mem_flatMap] at h
    obtain ⟨⟨⟨hcolumns, hfilter⟩, hjoins⟩, hgroups⟩ := h
    rw [Select.mapValues, Expr.mapListValues_eq_self columns hcolumns,
      Filter.mapValues_eq_self filter hfilter,
      List.map_eq_self fun j hj => Join.mapValues_eq_self (hjoins j hj),
      List.map_eq_self fun g hg => Grouping.mapValues_eq_self (hgroups g hg)]

end

theorem Row.mapValues_eq_self {r : Row} (h : ∀ v ∈ r.allValues, f v = v) :
    r.mapValues f = r := by
  have hfield : ∀ field ∈ r.fields, (field.1, field.2.mapValues f) = field := by
    rintro ⟨column, cell⟩ hfield
    cases cell with
    | default => rfl
    | value v =>
      have hv : f v = v := h v (List.mem_flatMap.2 ⟨_, hfield, List.mem_singleton_self v⟩)
      rw [Cell.mapValues, hv]
  rw [mapValues, List.map_eq_self hfield]

theorem Refresh.mapValues_eq_self {item : Refresh} (h : ∀ v ∈ item.allValues, f v = v) :
    item.mapValues f = item := by
  cases item with
  | column c => rfl
  | raw sql => rw [mapValues, RawSql.mapValues_eq_self h]

theorem Column.mapValues_eq_self {c : Column} (h : ∀ v ∈ c.allValues, f v = v) :
    c.mapValues f = c := by
  have hdefault : ∀ d ∈ c.default, d.mapValues f = d := by
    intro d hd
    cases d with
    | raw sql =>
      have hsql : ∀ v ∈ sql.bindings, f v = v := fun v hv =>
        h v (List.mem_flatMap.2 ⟨_, Option.mem_toList.2 hd, hv⟩)
      rw [ColumnDefault.mapValues, RawSql.mapValues_eq_self hsql]
    | text t | int n | float x => rfl
  rw [mapValues, Option.map_eq_self hdefault]

/-- A statement whose values are all kept is kept. -/
theorem Query.mapValues_eq_self {q : Query} (h : ∀ v ∈ q.allValues, f v = v) :
    q.mapValues f = q := by
  cases q with
  | select q => exact congrArg Query.select (Select.mapValues_eq_self q h)
  | insert q =>
    rw [allValues, List.forall_mem_append, List.forall_mem_flatMap, List.forall_mem_flatMap] at h
    obtain ⟨hrows, hitems⟩ := h
    have hrefresh : ∀ items ∈ q.onDuplicate, items.map (Refresh.mapValues f) = items := by
      intro items hq
      rw [Option.mem_def.1 hq] at hitems
      exact List.map_eq_self fun item hitem => Refresh.mapValues_eq_self (hitems item hitem)
    rw [mapValues, Insert.mapValues, Option.map_eq_self hrefresh,
      List.map_eq_self fun r hr => Row.mapValues_eq_self (hrows r hr)]
  | update q =>
    rw [allValues, List.forall_mem_append, List.forall_mem_map] at h
    have hset : ∀ a ∈ q.assignments, (a.1, f a.2) = a := fun a ha =>
      congrArg (Prod.mk a.1) (h.1 a ha)
    rw [mapValues, Update.mapValues, List.map_eq_self hset, Filter.mapValues_eq_self q.filter h.2]
  | delete q =>
    rw [mapValues, Delete.mapValues, Filter.mapValues_eq_self q.filter h]
  | createTable q =>
    rw [allValues, List.forall_mem_flatMap] at h
    rw [mapValues, CreateTable.mapValues,
      List.map_eq_self fun c hc => Column.mapValues_eq_self (h c hc)]
  | createIndex q => rfl

end

/-! ## Loading again -/

/-- Whether there is a double in the statement, as a value or as the default of a column. -/
def Query.hasFloat (q : Query) : Bool := q.allValues.any Value.hasFloat || q.hasFloatDefault

/-- However a document is spelled, the statement it gives is given again by the document that is
written for the statement, provided that no number in it is a double. -/
theorem Query.parse?_of_parse? {text : String} {q : Query} (h : parse? text = some q)
    (hfloat : q.hasFloat = false) (hdepth : q.toJson.depth ≤ 127) :
    parse? q.toJson.compact = some q := by
  obtain ⟨j, -, hj⟩ := Option.bind_eq_some_iff.1 h
  have hloaded := isLoaded_of_ofJson? hj
  obtain ⟨hvalues, hdefault⟩ := Bool.or_eq_false_iff.1 hfloat
  have hexact : ∀ v ∈ q.allValues, v.isExact = true := fun v hv =>
    Value.isExact_of_isLoaded v (hloaded v hv) (by simpa using List.any_eq_false.1 hvalues v hv)
  have hsigned : q.reloaded = q := mapValues_eq_self fun v hv =>
    Value.signed_of_isLoaded v (hloaded v hv)
  rw [parse?, Json.parse?_compact (isExact_toJson hexact hdefault) hdepth]
  exact (ofJson?_toJson hexact hdefault).trans (congrArg some hsigned)

/-- An insertion spelled loosely: a row is an array, a name is escaped, a cell without content is an
object, a date has neither tag nor zeros, members stand in another order and one is unknown. -/
def Query.looseInsert : String :=
  "\x7b\"insert\": \x7b\"rows\": [[[[\"\\u0061\", \x7b\"default\": " ++
    "null\x7d], [\"b\", \x7b\"value\": [\"2024-2-9\"]\x7d], [\"c\"," ++
    " \x7b\"value\": [[], 7]\x7d]]]], \"x\": \x7b\"table\": 1.5\x7d," ++
    " \"table\": \"t\"\x7d\x7d"

/-- The same insertion as it is written. -/
def Query.strictInsert : String :=
  "\x7b\"insert\":\x7b\"table\":\"t\",\"schema\":null,\"rows\":[\x7b\"fields\":[[\"a\"," ++
    "\"default\"],[\"b\",\x7b\"value\":\x7b\"date\":\"2024-02-09\"\x7d\x7d]," ++
    "[\"c\",\x7b\"value\":[[],7]\x7d]]\x7d],\"ignore\":false,\"on_duplicate\":null\x7d\x7d"

theorem Query.parse?_of_parse?_looseInsert :
    ∃ q, parse? looseInsert = some q ∧ q.hasFloat = false ∧ q.toJson.depth ≤ 127 ∧
      q.toJson.compact = strictInsert ∧ parse? strictInsert = some q := by
  have hload : (parse? looseInsert).any (fun q => !q.hasFloat && decide (q.toJson.depth ≤ 127) &&
      q.toJson.compact == strictInsert) = true := by
    decide +kernel
  obtain ⟨q, hq, hproperties⟩ := (Option.any_eq_true _ _).1 hload
  simp only [Bool.and_eq_true, Bool.not_eq_true', decide_eq_true_eq, beq_iff_eq] at hproperties
  obtain ⟨⟨hfloat, hdepth⟩, hcompact⟩ := hproperties
  have hagain := parse?_of_parse? hq hfloat hdepth
  rw [hcompact] at hagain
  exact ⟨q, hq, hfloat, hdepth, hcompact, hagain⟩

end BoundSql
