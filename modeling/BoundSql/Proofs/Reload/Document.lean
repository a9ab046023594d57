import BoundSql.Proofs.Reload.Record

/-!
# Statements read back

Expressions, filters and queries are read back together, by induction on how they stand in each
other; every statement is then read back from its parts.
-/
namespace BoundSql

open Json Value

/-! ## Queries -/

/-- The parts of an array are decoded as its items. -/
theorem Json.mapM_parts {α : Type} (decode : Json → Option α) (items : List Json) :
    ((parts items).mapM fun part => decode part.val) = items.mapM decode := by
  have hval : (parts items).map (fun part => part.val) = items := by
    rw [parts, List.attachWith_map_subtype_val]
  have hmap := List.mapM_map (m := Option) (l := parts items) (f := fun part => part.val)
    (g := decode)
  rw [hval] at hmap
  exact hmap.symm

theorem Expr.listOfJson?_array (items : List Json) :
    Expr.listOfJson? (.array items) = items.mapM Expr.ofJson? := by
  rw [Expr.listOfJson?]
  exact mapM_parts Expr.ofJson? items

mutual

theorem Expr.ofJson?_toJson : (e : Expr) → (∀ v ∈ e.allValues, v.isExact = true) →
    Expr.ofJson? e.toJson = some (e.mapValues signed)
  | .raw sql, h => by
    rw [Expr.allValues] at h
    have hread : Expr.ofJson? (Expr.raw sql).toJson = (RawSql.ofJson? sql.toJson).map .raw := by
      rw [Expr.ofJson?]
      rfl
    rw [hread, RawSql.ofJson?_toJson h]
    rfl
  | .column c label, _ => by
    have hread : Expr.ofJson? (Expr.column c label).toJson = (do
        return .column (← ColumnName.ofJson? c.toJson)
          (← nullable? string? (.ofString? label))) := by
      rw [Expr.ofJson?]
      rfl
    rw [hread, c.ofJson?_toJson, nullable?_ofString]
    rfl
  | .aggregate function c label, _ => by
    have hread : Expr.ofJson? (Expr.aggregate function c label).toJson = (do
        return .aggregate (← Aggregate.ofJson? function.toJson) (← ColumnName.ofJson? c.toJson)
          (← nullable? string? (.ofString? label))) := by
      rw [Expr.ofJson?]
      rfl
    rw [hread, function.ofJson?_toJson, c.ofJson?_toJson, nullable?_ofString]
    rfl
  | .rawColumn sql, h => by
    rw [Expr.allValues] at h
    have hread : Expr.ofJson? (Expr.rawColumn sql).toJson =
        (RawSql.ofJson? sql.toJson).map .rawColumn := by
      rw [Expr.ofJson?]
      rfl
    rw [hread, RawSql.ofJson?_toJson h]
    rfl
  | .datePart part c label, _ => by
    have hread : Expr.ofJson? (Expr.datePart part c label).toJson = (do
        return .datePart (← DatePart.ofJson? part.toJson) (← ColumnName.ofJson? c.toJson)
          (← nullable? string? (.ofString? label))) := by
      rw [Expr.ofJson?]
      rfl
    rw [hread, part.ofJson?_toJson, c.ofJson?_toJson, nullable?_ofString]
    rfl
  | .comparison c op value, h => by
    rw [Expr.allValues] at h
    have hread : Expr.ofJson? (Expr.comparison c op value).toJson = (do
        return .comparison (← ColumnName.ofJson? c.toJson) (← Operator.ofJson? op.toJson)
          (← Value.ofJson? value.toJson)) := by
      rw [Expr.ofJson?]
      rfl
    rw [hread, c.ofJson?_toJson, op.ofJson?_toJson, Value.ofJson?_toJson value (h _ (by simp))]
    rfl
  | .between c low high negated, h => by
    rw [Expr.allValues] at h
    have hread : Expr.ofJson? (Expr.between c low high negated).toJson = (do
        return .between (← ColumnName.ofJson? c.toJson) (← Value.ofJson? low.toJson)
          (← Value.ofJson? high.toJson) negated) := by
      rw [Expr.ofJson?]
      rfl
    rw [hread, c.ofJson?_toJson, Value.ofJson?_toJson low (h _ (by simp)),
      Value.ofJson?_toJson high (h _ (by simp))]
    rfl
  | .oneOf c values negated, h => by
    rw [Expr.allValues] at h
    have hread : Expr.ofJson? (Expr.oneOf c values negated).toJson = (do
        return .oneOf (← ColumnName.ofJson? c.toJson)
          (← Value.listOfJson? (.ofList Value.toJson values)) negated) := by
      rw [Expr.ofJson?]
      rfl
    rw [hread, c.ofJson?_toJson, listOfJson?_ofList h]
    rfl
  | .group filter, h => by
    rw [Expr.allValues] at h
    have hread : Expr.ofJson? (Expr.group filter).toJson =
        (Filter.ofJson? filter.toJson).map .group := by
      rw [Expr.ofJson?]
      rfl
    rw [hread, Filter.ofJson?_toJson filter h]
    rfl
  | .existence query negated, h => by
    rw [Expr.allValues] at h
    have hread : Expr.ofJson? (Expr.existence query negated).toJson = (do
        return .existence (← Select.ofJson? query.toJson) negated) := by
      rw [Expr.ofJson?]
      rfl
    rw [hread, Select.ofJson?_toJson query h]
    rfl

theorem Expr.ofJsons?_toJsons : (es : List Expr) → (∀ v ∈ Expr.listValues es, v.isExact = true) →
    (Expr.toJsons es).mapM Expr.ofJson? = some (Expr.mapListValues signed es)
  | [], _ => rfl
  | e :: rest, h => by
    rw [Expr.listValues, List.forall_mem_append] at h
    rw [Expr.toJsons, List.mapM_cons, Expr.ofJson?_toJson e h.1, Expr.ofJsons?_toJsons rest h.2]
    rfl

theorem Filter.ofJson?_toJson : (f : Filter) → (∀ v ∈ f.allValues, v.isExact = true) →
    Filter.ofJson? f.toJson = some (f.mapValues signed)
  | ⟨terms, connective⟩, h => by
    rw [Filter.allValues] at h
    have hread : Filter.ofJson? (Filter.toJson ⟨terms, connective⟩) = (do
        return ⟨← Expr.listOfJson? (.array (Expr.toJsons terms)),
          ← Connective.ofJson? connective.toJson⟩) := by
      rw [Filter.ofJson?]
      rfl
    rw [hread, Expr.listOfJson?_array, Expr.ofJsons?_toJsons terms h, connective.ofJson?_toJson]
    rfl

/-- A query comes back with its values signed. -/
theorem Select.ofJson?_toJson : (q : Select) → (∀ v ∈ q.allValues, v.isExact = true) →
    Select.ofJson? q.toJson = some (q.mapValues signed)
  | ⟨table, schema, tableAlias, distinct, columns, filter, joins, groups, sort, limits,
      recursion⟩, h => by
    rw [Select.allValues, List.forall_mem_append, List.forall_mem_append, List.forall_mem_append,
      List.forall_mem_flatMap, List.forall_mem_flatMap] at h
    obtain ⟨⟨⟨hcolumns, hfilter⟩, hjoins⟩, hgroups⟩ := h
    have hread : Select.ofJson? (Select.toJson ⟨table, schema, tableAlias, distinct, columns,
        filter, joins, groups, sort, limits, recursion⟩) = (do
        let columns ← Expr.listOfJson? (.array (Expr.toJsons columns))
        let filter ← Filter.ofJson? filter.toJson
        return {
          table := ← nullable? string? (.ofString? table)
          schema := ← nullable? string? (.ofString? schema)
          tableAlias := ← nullable? string? (.ofString? tableAlias)
          distinct
          columns
          filter
          joins := ← list? Join.ofJson? (.ofList Join.toJson joins)
          groups := ← list? Grouping.ofJson? (.ofList Grouping.toJson groups)
          sort := ← nullable? SortKey.ofJson? (.ofOption SortKey.toJson sort)
          limits := ← Limits.ofJson? limits.toJson
          recursion := ← nullable? Recursion.ofJson? (.ofOption Recursion.toJson recursion) }) := by
      rw [Select.ofJson?]
      rfl
    have hsort : nullable? SortKey.ofJson? (.ofOption SortKey.toJson sort) = some (sort.map id) :=
      nullable?_ofOption (fun k => by simp [SortKey.toJson]) fun k _ => k.ofJson?_toJson
    have hrecursion : nullable? Recursion.ofJson? (.ofOption Recursion.toJson recursion) =
        some (recursion.map id) :=
      nullable?_ofOption (fun k => by simp [Recursion.toJson]) fun k _ => k.ofJson?_toJson
    have hjoin : ∀ j ∈ joins, Join.ofJson? j.toJson = some (j.mapValues signed) := fun j hj =>
      Join.ofJson?_toJson (hjoins j hj)
    have hgroup : ∀ g ∈ groups, Grouping.ofJson? g.toJson = some (g.mapValues signed) :=
      fun g hg => Grouping.ofJson?_toJson (hgroups g hg)
    rw [hread, Expr.listOfJson?_array, Expr.ofJsons?_toJsons columns hcolumns,
      Filter.ofJson?_toJson filter hfilter, nullable?_ofString, nullable?_ofString,
      nullable?_ofString, list?_ofList hjoin, list?_ofList hgroup, hsort, limits.ofJson?_toJson,
      hrecursion, Option.map_id, Option.map_id]
    rfl

end

/-! ## Changes -/

theorem Insert.ofJson?_toJson {q : Insert}
    (hrows : ∀ v ∈ q.rows.flatMap Row.allValues, v.isExact = true)
    (hitems : ∀ v ∈ (q.onDuplicate.getD []).flatMap Refresh.allValues, v.isExact = true) :
    ofJson? q.toJson = some (q.mapValues signed) := by
  obtain ⟨table, schema, rows, ignore, onDuplicate⟩ := q
  have hread : ofJson? (Insert.toJson ⟨table, schema, rows, ignore, onDuplicate⟩) = (do
      return {
        table := ← nullable? string? (.ofString? table)
        schema := ← nullable? string? (.ofString? schema)
        rows := ← list? Row.ofJson? (.ofList Row.toJson rows)
        ignore
        onDuplicate := ← nullable? Refresh.listOfJson?
          (.ofOption Refresh.listToJson onDuplicate) }) := rfl
  rw [List.forall_mem_flatMap] at hrows
  have hrow : ∀ r ∈ rows, Row.ofJson? r.toJson = some (r.mapValues signed) := fun r hr =>
    Row.ofJson?_toJson (hrows r hr)
  have honDuplicate : nullable? Refresh.listOfJson? (.ofOption Refresh.listToJson onDuplicate) =
      some (onDuplicate.map (List.map (Refresh.mapValues signed))) := by
    refine nullable?_ofOption (fun items => by simp [Refresh.listToJson]) fun items h => ?_
    obtain rfl := Option.mem_def.1 h
    exact Refresh.listOfJson?_listToJson hitems
  rw [hread, nullable?_ofString, nullable?_ofString, list?_ofList hrow, honDuplicate]
  rfl

theorem Update.ofJson?_toJson {q : Update}
    (hassignments : ∀ v ∈ q.assignments.map (·.2), v.isExact = true)
    (hfilter : ∀ v ∈ q.filter.allValues, v.isExact = true) :
    ofJson? q.toJson = some (q.mapValues signed) := by
  have hread : ofJson? q.toJson = (do
      return {
        table := ← nullable? string? (.ofString? q.table)
        schema := ← nullable? string? (.ofString? q.schema)
        tableAlias := ← nullable? string? (.ofString? q.tableAlias)
        assignments := ← list? (pair? string? Value.ofJson?)
          (.ofList (fun a => .array [.string a.1, a.2.toJson]) q.assignments)
        filter := ← Filter.ofJson? q.filter.toJson }) := rfl
  have hassignment : ∀ a ∈ q.assignments,
      pair? string? Value.ofJson? (.array [.string a.1, a.2.toJson]) =
        some (a.1, a.2.signed) := by
    intro a ha
    have hvalue := Value.ofJson?_toJson a.2 (hassignments _ (List.mem_map_of_mem ha))
    rw [pair?, hvalue]
    rfl
  rw [hread, nullable?_ofString, nullable?_ofString, nullable?_ofString, list?_ofList hassignment,
    Filter.ofJson?_toJson q.filter hfilter]
  rfl

theorem Delete.ofJson?_toJson {q : Delete} (h : ∀ v ∈ q.filter.allValues, v.isExact = true) :
    ofJson? q.toJson = some (q.mapValues signed) := by
  have hread : ofJson? q.toJson = (do
      return {
        table := ← nullable? string? (.ofString? q.table)
        schema := ← nullable? string? (.ofString? q.schema)
        tableAlias := ← nullable? string? (.ofString? q.tableAlias)
        filter := ← Filter.ofJson? q.filter.toJson
        limits := ← Limits.ofJson? q.limits.toJson
        truncate := q.truncate }) := rfl
  rw [hread, nullable?_ofString, nullable?_ofString, nullable?_ofString,
    Filter.ofJson?_toJson q.filter h, q.limits.ofJson?_toJson]
  rfl

/-! ## Definitions -/

theorem CreateTable.ofJson?_toJson {q : CreateTable}
    (hfloat : q.columns.any Column.hasFloat = false)
    (h : ∀ v ∈ q.columns.flatMap Column.allValues, v.isExact = true) :
    ofJson? q.toJson = some (q.mapValues signed) := by
  have hread : ofJson? q.toJson = (do
      return {
        table := ← nullable? string? (.ofString? q.table)
        schema := ← nullable? string? (.ofString? q.schema)
        columns := ← list? Column.ofJson? (.ofList Column.toJson q.columns)
        foreignKeys := ← list? ForeignKey.ofJson? (.ofList ForeignKey.toJson q.foreignKeys) }) :=
    rfl
  rw [List.forall_mem_flatMap] at h
  have hcolumn : ∀ c ∈ q.columns, Column.ofJson? c.toJson = some (c.mapValues signed) := by
    intro c hc
    have hcfloat : c.hasFloat = false := by
      simpa using List.any_eq_false.1 hfloat c hc
    exact Column.ofJson?_toJson hcfloat (h c hc)
  have hkey : ∀ k ∈ q.foreignKeys, ForeignKey.ofJson? k.toJson = some (id k) := fun k _ =>
    k.ofJson?_toJson
  rw [hread, nullable?_ofString, nullable?_ofString, list?_ofList hcolumn, list?_ofList hkey,
    List.map_id]
  rfl

theorem CreateIndex.ofJson?_toJson (q : CreateIndex) : ofJson? q.toJson = some q := by
  have hread : ofJson? q.toJson = (do
      return {
        table := ← nullable? string? (.ofString? q.table)
        schema := ← nullable? string? (.ofString? q.schema)
        name := q.name
        unique := q.unique
        columns := ← list? string? (.ofList .string q.columns) }) := rfl
  rw [hread, nullable?_ofString, nullable?_ofString, list?_strings]
  rfl

/-! ## Statements -/

/-- A statement comes back with its values signed. -/
theorem Query.ofJson?_toJson {q : Query} (h : ∀ v ∈ q.allValues, v.isExact = true)
    (hfloat : q.hasFloatDefault = false) : ofJson? q.toJson = some q.reloaded := by
  cases q with
  | select q =>
    have hread : ofJson? (Query.select q).toJson = (Select.ofJson? q.toJson).map .select := rfl
    rw [hread, Select.ofJson?_toJson q h]
    rfl
  | insert q =>
    have hread : ofJson? (Query.insert q).toJson = (Insert.ofJson? q.toJson).map .insert := rfl
    rw [allValues, List.forall_mem_append] at h
    rw [hread, Insert.ofJson?_toJson h.1 h.2]
    rfl
  | update q =>
    have hread : ofJson? (Query.update q).toJson = (Update.ofJson? q.toJson).map .update := rfl
    rw [allValues, List.forall_mem_append] at h
    rw [hread, Update.ofJson?_toJson h.1 h.2]
    rfl
  | delete q =>
    have hread : ofJson? (Query.delete q).toJson = (Delete.ofJson? q.toJson).map .delete := rfl
    rw [hread, Delete.ofJson?_toJson h]
    rfl
  | createTable q =>
    have hread : ofJson? (Query.createTable q).toJson =
        (CreateTable.ofJson? q.toJson).map .createTable := rfl
    rw [hread, CreateTable.ofJson?_toJson hfloat h]
    rfl
  | createIndex q =>
    have hread : ofJson? (Query.createIndex q).toJson =
        (CreateIndex.ofJson? q.toJson).map .createIndex := rfl
    rw [hread, q.ofJson?_toJson]
    rfl

end BoundSql
