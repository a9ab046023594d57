import BoundSql.Proofs.Reload.Value

/-!
# Records read back

A written record has all its fields under their names, so each is read from the place where it
was written. The parts of a statement that hold no other statement come back with their values
signed and are otherwise the same.
-/
namespace BoundSql

namespace Json

section
variable {α β : Type}

/-- A field that is there and may be `null`. -/
def nullable? (decode : Json → Option α) : Json → Option (Option α)
  | .null => some none
  | j => (decode j).map some

theorem nullable?_ofOption {encode : α → Json} {decode : Json → Option β} {g : α → β}
    {a : Option α} (hne : ∀ b, encode b ≠ .null) (h : ∀ b ∈ a, decode (encode b) = some (g b)) :
    nullable? decode (ofOption encode a) = some (a.map g) := by
  cases a with
  | none => rfl
  | some b =>
    rw [ofOption, nullable?]
    · rw [h b rfl]
      rfl
    · exact hne b

theorem nullable?_ofString (s : Option String) : nullable? string? (ofString? s) = some s := by
  cases s <;> rfl

theorem list?_ofList {encode : α → Json} {decode : Json → Option β} {g : α → β} {as : List α}
    (h : ∀ a ∈ as, decode (encode a) = some (g a)) :
    list? decode (ofList encode as) = some (as.map g) := mapM_map_eq encode g h

end

theorem list?_strings (as : List String) : list? string? (ofList .string as) = some as := by
  have hlist : list? string? (ofList .string as) = some (as.map id) := list?_ofList fun _ _ => rfl
  rwa [List.map_id] at hlist

theorem int64?_ofInt64 (n : Int64) : (Json.ofInt64 n).int64? = some n := Whole.toInt64?_ofInt64 n

theorem uint64?_ofUInt64 (n : UInt64) : (Json.ofUInt64 n).uint64? = some n :=
  Whole.toUInt64?_ofUInt64 n

theorem list?_uint32s (as : List UInt32) : list? uint32? (ofList .ofUInt32 as) = some as := by
  have hlist : list? uint32? (ofList .ofUInt32 as) = some (as.map id) :=
    list?_ofList fun n _ => Whole.toUInt32?_ofUInt32 n
  rwa [List.map_id] at hlist

end Json

open Json Value

/-! ## Keywords -/

theorem Connective.ofJson?_toJson (c : Connective) : ofJson? c.toJson = some c := by
  cases c <;> rfl

theorem Direction.ofJson?_toJson (d : Direction) : ofJson? d.toJson = some d := by
  cases d <;> rfl

theorem JoinKind.ofJson?_toJson (k : JoinKind) : ofJson? k.toJson = some k := by
  cases k <;> rfl

theorem Aggregate.ofJson?_toJson (a : Aggregate) : ofJson? a.toJson = some a := by
  cases a <;> rfl

theorem DatePart.ofJson?_toJson (p : DatePart) : ofJson? p.toJson = some p := by
  cases p <;> rfl

theorem ReferentialAction.ofJson?_toJson (a : ReferentialAction) : ofJson? a.toJson = some a := by
  cases a <;> rfl

theorem ColumnType.ofJson?_toJson (t : ColumnType) : ofJson? t.toJson = some t := by
  cases t <;> rfl

theorem Operator.ofJson?_toJson (op : Operator) : ofJson? op.toJson = some op := by
  cases op <;> rfl

/-! ## Parts of queries -/

theorem ColumnName.ofJson?_toJson (c : ColumnName) : ofJson? c.toJson = some c := by
  have hread : ofJson? c.toJson = (do
      return ⟨c.name, ← nullable? string? (.ofString? c.qualifier)⟩) := rfl
  rw [hread, nullable?_ofString]
  rfl

theorem RawSql.ofJson?_toJson {r : RawSql} (h : ∀ v ∈ r.bindings, v.isExact = true) :
    ofJson? r.toJson = some (r.mapValues signed) := by
  have hread : ofJson? r.toJson = (do
      return ⟨r.text, ← listOfJson? (.ofList Value.toJson r.bindings)⟩) := rfl
  rw [hread, listOfJson?_ofList h]
  rfl

theorem Join.ofJson?_toJson {j : Join} (h : ∀ v ∈ j.allValues, v.isExact = true) :
    ofJson? j.toJson = some (j.mapValues signed) := by
  cases j with
  | table kind joined tableAlias primaryKey foreignKey =>
    have hread : ofJson? (Join.table kind joined tableAlias primaryKey foreignKey).toJson = (do
        return .table (← JoinKind.ofJson? kind.toJson) joined
          (← nullable? string? (.ofString? tableAlias)) (← ColumnName.ofJson? primaryKey.toJson)
          (← ColumnName.ofJson? foreignKey.toJson)) := rfl
    rw [hread, kind.ofJson?_toJson, nullable?_ofString, primaryKey.ofJson?_toJson,
      foreignKey.ofJson?_toJson]
    rfl
  | raw kind sql =>
    have hread : ofJson? (Join.raw kind sql).toJson = (do
        return .raw (← JoinKind.ofJson? kind.toJson) (← RawSql.ofJson? sql.toJson)) := rfl
    rw [hread, kind.ofJson?_toJson, RawSql.ofJson?_toJson h]
    rfl

theorem Grouping.ofJson?_toJson {g : Grouping} (h : ∀ v ∈ g.allValues, v.isExact = true) :
    ofJson? g.toJson = some (g.mapValues signed) := by
  cases g with
  | column c =>
    have hread : ofJson? (Grouping.column c).toJson = (ColumnName.ofJson? c.toJson).map .column :=
      rfl
    rw [hread, c.ofJson?_toJson]
    rfl
  | raw sql =>
    have hread : ofJson? (Grouping.raw sql).toJson = (RawSql.ofJson? sql.toJson).map .raw := rfl
    rw [hread, RawSql.ofJson?_toJson h]
    rfl

theorem SortKey.ofJson?_toJson (k : SortKey) : ofJson? k.toJson = some k := by
  have hread : ofJson? k.toJson = (do
      return ⟨k.column, ← Direction.ofJson? k.direction.toJson⟩) := rfl
  rw [hread, k.direction.ofJson?_toJson]
  rfl

theorem Limits.ofJson?_toJson (l : Limits) : ofJson? l.toJson = some l := by
  have hread : ofJson? l.toJson = (do
      return ⟨← uint64? (.ofUInt64 l.limit), ← uint64? (.ofUInt64 l.offset)⟩) := rfl
  rw [hread, uint64?_ofUInt64, uint64?_ofUInt64]
  rfl

theorem Recursion.ofJson?_toJson (k : Recursion) : ofJson? k.toJson = some k := rfl

/-! ## Parts of changes -/

theorem Cell.ofJson?_toJson {c : Cell} (h : ∀ v ∈ c.allValues, v.isExact = true) :
    ofJson? c.toJson = some (c.mapValues signed) := by
  cases c with
  | default => rfl
  | value v =>
    have htag : tag? (.object [("value", v.toJson)]) ≠ some "default" := by
      cases v.toJson <;> simp [tag?]
    have hread : ofJson? (Cell.value v).toJson = (Value.ofJson? v.toJson).map .value := if_neg htag
    rw [hread, Value.ofJson?_toJson v (h v (List.mem_singleton.2 rfl))]
    rfl

theorem Row.ofJson?_toJson {r : Row} (h : ∀ v ∈ r.allValues, v.isExact = true) :
    ofJson? r.toJson = some (r.mapValues signed) := by
  rw [allValues, List.forall_mem_flatMap] at h
  have hread : ofJson? r.toJson = (list? (pair? string? Cell.ofJson?)
      (.ofList (fun field => .array [.string field.1, field.2.toJson]) r.fields)).map Row.mk := rfl
  have hfield : ∀ field ∈ r.fields,
      pair? string? Cell.ofJson? (.array [.string field.1, field.2.toJson]) =
        some (field.1, field.2.mapValues signed) := by
    intro field hfield
    rw [pair?, Cell.ofJson?_toJson (h field hfield)]
    rfl
  rw [hread, list?_ofList hfield]
  rfl

theorem Refresh.ofJson?_toJson {i : Refresh} (h : ∀ v ∈ i.allValues, v.isExact = true) :
    ofJson? i.toJson = some (i.mapValues signed) := by
  cases i with
  | column c => rfl
  | raw sql =>
    have hread : ofJson? (Refresh.raw sql).toJson = (RawSql.ofJson? sql.toJson).map .raw := rfl
    rw [hread, RawSql.ofJson?_toJson h]
    rfl

theorem Refresh.listOfJson?_listToJson {items : List Refresh}
    (h : ∀ v ∈ items.flatMap Refresh.allValues, v.isExact = true) :
    listOfJson? (listToJson items) = some (items.map (Refresh.mapValues signed)) := by
  have hread : listOfJson? (listToJson items) = list? ofJson? (.ofList toJson items) := rfl
  rw [List.forall_mem_flatMap] at h
  rw [hread, list?_ofList fun i hi => Refresh.ofJson?_toJson (h i hi)]

/-! ## Parts of definitions -/

theorem ColumnDefault.ofJson?_toJson {c : ColumnDefault} (hfloat : c.isFloat = false)
    (h : ∀ v ∈ c.allValues, v.isExact = true) :
    ofJson? c.toJson = some (c.mapValues signed) := by
  cases c with
  | text t => rfl
  | int n =>
    have hread : ofJson? (ColumnDefault.int n).toJson = (int64? (.ofInt64 n)).map .int := rfl
    rw [hread, int64?_ofInt64]
    rfl
  | float x => cases hfloat
  | raw sql =>
    have hread : ofJson? (ColumnDefault.raw sql).toJson = (RawSql.ofJson? sql.toJson).map .raw :=
      rfl
    rw [hread, RawSql.ofJson?_toJson h]
    rfl

theorem Column.ofJson?_toJson {c : Column} (hfloat : c.hasFloat = false)
    (h : ∀ v ∈ c.allValues, v.isExact = true) : ofJson? c.toJson = some (c.mapValues signed) := by
  rw [allValues, List.forall_mem_flatMap] at h
  have hdefault : nullable? ColumnDefault.ofJson? (.ofOption ColumnDefault.toJson c.default) =
      some (c.default.map (ColumnDefault.mapValues signed)) := by
    refine nullable?_ofOption (fun d => ?_) fun d hd => ColumnDefault.ofJson?_toJson ?_ ?_
    · cases d <;> simp [ColumnDefault.toJson]
    · rw [hasFloat, Option.mem_def.1 hd] at hfloat
      exact hfloat
    · exact h d (Option.mem_toList.2 hd)
  have hread : ofJson? c.toJson = (do
      return {
        name := c.name
        type := ← ColumnType.ofJson? c.type.toJson
        args := ← list? uint32? (.ofList .ofUInt32 c.args)
        members := ← list? string? (.ofList .string c.members)
        unsigned := c.unsigned
        notNull := c.notNull
        primaryKey := c.primaryKey
        autoIncrement := c.autoIncrement
        default := ← nullable? ColumnDefault.ofJson? (.ofOption ColumnDefault.toJson c.default)
        charset := ← nullable? string? (.ofString? c.charset)
        collation := ← nullable? string? (.ofString? c.collation)
        comment := ← nullable? string? (.ofString? c.comment) }) := rfl
  rw [hread, c.type.ofJson?_toJson, list?_uint32s, list?_strings, hdefault, nullable?_ofString,
    nullable?_ofString, nullable?_ofString]
  rfl

theorem ForeignKey.ofJson?_toJson (k : ForeignKey) : ofJson? k.toJson = some k := by
  have hread : ofJson? k.toJson = (do
      return {
        column := k.column
        referencedTable := k.referencedTable
        referencedColumn := k.referencedColumn
        onDelete := ← ReferentialAction.ofJson? k.onDelete.toJson
        onUpdate := ← ReferentialAction.ofJson? k.onUpdate.toJson }) := rfl
  rw [hread, k.onDelete.ofJson?_toJson, k.onUpdate.ofJson?_toJson]
  rfl

end BoundSql
