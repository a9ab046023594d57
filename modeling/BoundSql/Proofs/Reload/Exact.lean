import BoundSql.Proofs.Json.Text
import BoundSql.Proofs.Reload.Basic

/-!
# Exact documents

The document of a statement has a text that says all of it, unless a double stands in the
statement. Everything but values and defaults is written without numbers, or with numbers of
64 bits.
-/
namespace BoundSql

namespace Json

@[simp] theorem itemsExact_eq_all (items : List Json) : itemsExact items = items.all isExact := by
  induction items with
  | nil => rfl
  | cons j rest ih => rw [itemsExact, ih, List.all_cons]

@[simp] theorem membersExact_eq_all (members : List (String × Json)) :
    membersExact members = members.all fun m => m.2.isExact := by
  induction members with
  | nil => rfl
  | cons m rest ih => rw [membersExact, ih, List.all_cons]

@[simp] theorem isExact_bool (b : Bool) : (Json.bool b).isExact = true := rfl

@[simp] theorem isExact_string (s : String) : (Json.string s).isExact = true := rfl

@[simp] theorem isExact_array (items : List Json) :
    (Json.array items).isExact = items.all isExact := by
  rw [isExact, itemsExact_eq_all]

@[simp] theorem isExact_object (members : List (String × Json)) :
    (Json.object members).isExact = members.all fun m => m.2.isExact := by
  rw [isExact, membersExact_eq_all]

@[simp] theorem isExact_ofUInt64 (n : UInt64) : (Json.ofUInt64 n).isExact = true := rfl

@[simp] theorem isExact_ofString? (s : Option String) : (Json.ofString? s).isExact = true := by
  cases s <;> rfl

section
variable {α : Type} {encode : α → Json}

theorem isExact_ofOption {a : Option α} (h : ∀ b ∈ a, (encode b).isExact = true) :
    (ofOption encode a).isExact = true := by
  cases a with
  | none => rfl
  | some b => exact h b rfl

theorem isExact_ofList {as : List α} (h : ∀ a ∈ as, (encode a).isExact = true) :
    (ofList encode as).isExact = true := by
  simpa [ofList] using h

end
end Json

open Json

/-! ## Values -/

namespace Value

mutual

theorem isExact_toJson : (v : Value) → v.isExact = true → v.toJson.isExact = true
  | .null, _ | .bool _, _ | .int _, _ | .uint _, _ | .string _, _ => rfl
  | .dateTime _, _ | .date _, _ => rfl
  | .list members, h => by
    rw [isExact, Bool.and_eq_true] at h
    rw [toJson, Json.isExact, itemsExact_toJsons members h.2]

theorem itemsExact_toJsons : (vs : List Value) → areExact vs = true →
    itemsExact (toJsons vs) = true
  | [], _ => rfl
  | v :: rest, h => by
    rw [areExact, Bool.and_eq_true] at h
    rw [toJsons, itemsExact, isExact_toJson v h.1, itemsExact_toJsons rest h.2, Bool.and_true]

end

theorem isExact_list {vs : List Value} (h : ∀ v ∈ vs, v.isExact = true) :
    (Json.ofList toJson vs).isExact = true :=
  isExact_ofList fun v hv => isExact_toJson v (h v hv)

end Value

/-! ## Parts of statements -/

@[simp] theorem ColumnName.isExact_toJson (c : ColumnName) : c.toJson.isExact = true := by
  simp [toJson]

theorem RawSql.isExact_toJson {r : RawSql} (h : ∀ v ∈ r.bindings, v.isExact = true) :
    r.toJson.isExact = true := by
  simp [toJson, Value.isExact_list h]

theorem Join.isExact_toJson {j : Join} (h : ∀ v ∈ j.allValues, v.isExact = true) :
    j.toJson.isExact = true := by
  cases j with
  | table => simp [toJson, JoinKind.toJson]
  | raw kind sql => simp [toJson, JoinKind.toJson, RawSql.isExact_toJson h]

theorem Grouping.isExact_toJson {g : Grouping} (h : ∀ v ∈ g.allValues, v.isExact = true) :
    g.toJson.isExact = true := by
  cases g with
  | column c => simp [toJson]
  | raw sql => simp [toJson, RawSql.isExact_toJson h]

theorem SortKey.isExact_toJson (k : SortKey) : k.toJson.isExact = true := by
  simp [toJson, Direction.toJson]

@[simp] theorem Limits.isExact_toJson (l : Limits) : l.toJson.isExact = true := by
  simp [toJson]

theorem Recursion.isExact_toJson (k : Recursion) : k.toJson.isExact = true := by
  simp [toJson]

/-! ## Queries -/

mutual

theorem Expr.isExact_toJson : (e : Expr) → (∀ v ∈ e.allValues, v.isExact = true) →
    e.toJson.isExact = true
  | .raw sql, h | .rawColumn sql, h => by
    rw [Expr.allValues] at h
    simp [Expr.toJson, RawSql.isExact_toJson h]
  | .column .., _ => by simp [Expr.toJson]
  | .aggregate .., _ => by simp [Expr.toJson, Aggregate.toJson]
  | .datePart .., _ => by simp [Expr.toJson, DatePart.toJson]
  | .comparison c op value, h => by
    rw [Expr.allValues] at h
    simp [Expr.toJson, Operator.toJson, Value.isExact_toJson value (h _ (by simp))]
  | .between c low high negated, h => by
    rw [Expr.allValues] at h
    simp [Expr.toJson, Value.isExact_toJson low (h _ (by simp)),
      Value.isExact_toJson high (h _ (by simp))]
  | .oneOf c values negated, h => by
    rw [Expr.allValues] at h
    simp [Expr.toJson, Value.isExact_list h]
  | .group filter, h => by
    rw [Expr.allValues] at h
    simp [Expr.toJson, Filter.isExact_toJson filter h]
  | .existence query negated, h => by
    rw [Expr.allValues] at h
    simp [Expr.toJson, Select.isExact_toJson query h]

theorem Expr.itemsExact_toJsons : (es : List Expr) →
    (∀ v ∈ Expr.listValues es, v.isExact = true) → itemsExact (Expr.toJsons es) = true
  | [], _ => rfl
  | e :: rest, h => by
    rw [Expr.listValues, List.forall_mem_append] at h
    rw [Expr.toJsons, itemsExact, Expr.isExact_toJson e h.1, Expr.itemsExact_toJsons rest h.2,
      Bool.and_true]

theorem Filter.isExact_toJson : (f : Filter) → (∀ v ∈ f.allValues, v.isExact = true) →
    f.toJson.isExact = true
  | ⟨terms, connective⟩, h => by
    rw [Filter.allValues] at h
    have hterms := Expr.itemsExact_toJsons terms h
    rw [itemsExact_eq_all] at hterms
    simp only [Filter.toJson, Connective.toJson, isExact_object, isExact_array, hterms,
      isExact_string, List.all_cons, List.all_nil, Bool.and_true]

theorem Select.isExact_toJson : (q : Select) → (∀ v ∈ q.allValues, v.isExact = true) →
    q.toJson.isExact = true
  | ⟨table, schema, tableAlias, distinct, columns, filter, joins, groups, sort, limits,
      recursion⟩, h => by
    rw [Select.allValues, List.forall_mem_append, List.forall_mem_append, List.forall_mem_append,
      List.forall_mem_flatMap, List.forall_mem_flatMap] at h
    obtain ⟨⟨⟨hcolumns, hfilter⟩, hjoins⟩, hgroups⟩ := h
    have hcolumns := Expr.itemsExact_toJsons columns hcolumns
    have hjoins : (ofList Join.toJson joins).isExact = true := isExact_ofList fun j hj =>
      Join.isExact_toJson (hjoins j hj)
    have hgroups : (ofList Grouping.toJson groups).isExact = true := isExact_ofList fun g hg =>
      Grouping.isExact_toJson (hgroups g hg)
    have hsort : (ofOption SortKey.toJson sort).isExact = true :=
      isExact_ofOption fun k _ => k.isExact_toJson
    have hrecursion : (ofOption Recursion.toJson recursion).isExact = true :=
      isExact_ofOption fun k _ => k.isExact_toJson
    rw [itemsExact_eq_all] at hcolumns
    simp only [Select.toJson, isExact_object, isExact_array, isExact_ofString?, isExact_bool,
      hcolumns, Filter.isExact_toJson filter hfilter, hjoins, hgroups, hsort,
      Limits.isExact_toJson, hrecursion, List.all_cons, List.all_nil, Bool.and_true]

end

/-! ## Changes -/

theorem Cell.isExact_toJson {c : Cell} (h : ∀ v ∈ c.allValues, v.isExact = true) :
    c.toJson.isExact = true := by
  cases c with
  | default => rfl
  | value v => simp [toJson, Value.isExact_toJson v (h v (List.mem_singleton.2 rfl))]

theorem Row.isExact_toJson {r : Row} (h : ∀ v ∈ r.allValues, v.isExact = true) :
    r.toJson.isExact = true := by
  rw [allValues, List.forall_mem_flatMap] at h
  have hfields : (ofList (fun (field : String × Cell) =>
      Json.array [.string field.1, field.2.toJson]) r.fields).isExact = true := by
    refine isExact_ofList fun field hfield => ?_
    simp [Cell.isExact_toJson (h field hfield)]
  simp [toJson, hfields]

theorem Refresh.isExact_toJson {i : Refresh} (h : ∀ v ∈ i.allValues, v.isExact = true) :
    i.toJson.isExact = true := by
  cases i with
  | column c => simp [toJson]
  | raw sql => simp [toJson, RawSql.isExact_toJson h]

theorem Insert.isExact_toJson {q : Insert}
    (hrows : ∀ v ∈ q.rows.flatMap Row.allValues, v.isExact = true)
    (hitems : ∀ v ∈ (q.onDuplicate.getD []).flatMap Refresh.allValues, v.isExact = true) :
    q.toJson.isExact = true := by
  obtain ⟨table, schema, rows, ignore, onDuplicate⟩ := q
  rw [List.forall_mem_flatMap] at hrows hitems
  have hrows : (ofList Row.toJson rows).isExact = true := isExact_ofList fun r hr =>
    Row.isExact_toJson (hrows r hr)
  have honDuplicate : (ofOption Refresh.listToJson onDuplicate).isExact = true := by
    refine isExact_ofOption fun items h => ?_
    obtain rfl := Option.mem_def.1 h
    have hlist : (ofList Refresh.toJson items).isExact = true := isExact_ofList fun i hi =>
      Refresh.isExact_toJson (hitems i hi)
    simp [Refresh.listToJson, hlist]
  simp [toJson, hrows, honDuplicate]

theorem Update.isExact_toJson {q : Update}
    (hassignments : ∀ v ∈ q.assignments.map (·.2), v.isExact = true)
    (hfilter : ∀ v ∈ q.filter.allValues, v.isExact = true) : q.toJson.isExact = true := by
  have hvalues : (ofList (fun (a : String × Value) =>
      Json.array [.string a.1, a.2.toJson]) q.assignments).isExact = true := by
    refine isExact_ofList fun a ha => ?_
    have hvalue := Value.isExact_toJson a.2 (hassignments _ (List.mem_map_of_mem ha))
    simp [hvalue]
  simp [toJson, hvalues, Filter.isExact_toJson q.filter hfilter]

theorem Delete.isExact_toJson {q : Delete} (h : ∀ v ∈ q.filter.allValues, v.isExact = true) :
    q.toJson.isExact = true := by
  simp [toJson, Filter.isExact_toJson q.filter h]

/-! ## Definitions -/

theorem ColumnDefault.isExact_toJson {c : ColumnDefault} (hfloat : c.isFloat = false)
    (h : ∀ v ∈ c.allValues, v.isExact = true) : c.toJson.isExact = true := by
  cases c with
  | text t => rfl
  | int n => rfl
  | float x => cases hfloat
  | raw sql => simp [toJson, RawSql.isExact_toJson h]

theorem Column.isExact_toJson {c : Column} (hfloat : c.hasFloat = false)
    (h : ∀ v ∈ c.allValues, v.isExact = true) : c.toJson.isExact = true := by
  rw [allValues, List.forall_mem_flatMap] at h
  have hdefault : (ofOption ColumnDefault.toJson c.default).isExact = true := by
    refine isExact_ofOption fun d hd => ColumnDefault.isExact_toJson ?_ ?_
    · rw [hasFloat, Option.mem_def.1 hd] at hfloat
      exact hfloat
    · exact h d (Option.mem_toList.2 hd)
  have hargs : (ofList .ofUInt32 c.args).isExact = true := isExact_ofList fun _ _ => rfl
  have hmembers : (ofList .string c.members).isExact = true := isExact_ofList fun _ _ => rfl
  simp [toJson, ColumnType.toJson, hdefault, hargs, hmembers]

theorem ForeignKey.isExact_toJson (k : ForeignKey) : k.toJson.isExact = true := by
  simp [toJson, ReferentialAction.toJson]

theorem CreateTable.isExact_toJson {q : CreateTable}
    (hfloat : q.columns.any Column.hasFloat = false)
    (h : ∀ v ∈ q.columns.flatMap Column.allValues, v.isExact = true) : q.toJson.isExact = true := by
  rw [List.forall_mem_flatMap] at h
  have hcolumns : (ofList Column.toJson q.columns).isExact = true := by
    refine isExact_ofList fun c hc => Column.isExact_toJson ?_ (h c hc)
    simpa using List.any_eq_false.1 hfloat c hc
  have hkeys : (ofList ForeignKey.toJson q.foreignKeys).isExact = true :=
    isExact_ofList fun k _ => k.isExact_toJson
  simp [toJson, hcolumns, hkeys]

theorem CreateIndex.isExact_toJson (q : CreateIndex) : q.toJson.isExact = true := by
  have hcolumns : (ofList .string q.columns).isExact = true := isExact_ofList fun _ _ => rfl
  simp [toJson, hcolumns]

/-! ## Statements -/

theorem Query.isExact_toJson {q : Query} (h : ∀ v ∈ q.allValues, v.isExact = true)
    (hfloat : q.hasFloatDefault = false) : q.toJson.isExact = true := by
  cases q with
  | select q => simp [toJson, Select.isExact_toJson q h]
  | insert q =>
    rw [allValues, List.forall_mem_append] at h
    simp [toJson, Insert.isExact_toJson h.1 h.2]
  | update q =>
    rw [allValues, List.forall_mem_append] at h
    simp [toJson, Update.isExact_toJson h.1 h.2]
  | delete q => simp [toJson, Delete.isExact_toJson h]
  | createTable q => simp [toJson, CreateTable.isExact_toJson hfloat h]
  | createIndex q => simp [toJson, q.isExact_toJson]

end BoundSql
