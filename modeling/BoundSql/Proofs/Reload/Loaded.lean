import BoundSql.Proofs.Reload.Query

/-!
# Loaded values

What a document can give is less than what a statement can hold: an unsigned integer is loaded only
where it does not fit a signed one, and a list never where its only text reads as a time or a date.
Those are the values that a document gives back as they are, so a statement that was loaded once is
loaded again from its own document, however the first document was spelled.
-/
namespace BoundSql

/-! ## Values -/

namespace Value

mutual

/-- Whether there is a double in the value. -/
def hasFloat : Value → Bool
  | .float _ => true
  | .list members => anyFloat members
  | _ => false

def anyFloat : List Value → Bool
  | [] => false
  | v :: rest => v.hasFloat || anyFloat rest

end

mutual

/-- A value that some document gives. -/
def isLoaded : Value → Bool
  | .uint n => 0x7fffffffffffffff < n
  | .list members => !isTag members && areLoaded members
  | _ => true

def areLoaded : List Value → Bool
  | [] => true
  | v :: rest => v.isLoaded && areLoaded rest

end

theorem areLoaded_eq_all (vs : List Value) : areLoaded vs = vs.all isLoaded := by
  induction vs with
  | nil => rfl
  | cons v rest ih => rw [areLoaded, ih, List.all_cons]

mutual

theorem isExact_of_isLoaded : (v : Value) → v.isLoaded = true → v.hasFloat = false →
    v.isExact = true
  | .float x, _, hfloat => by cases hfloat
  | .list members, h, hfloat => by
    rw [isLoaded, Bool.and_eq_true] at h
    rw [hasFloat] at hfloat
    rw [isExact, Bool.and_eq_true]
    exact ⟨h.1, areExact_of_areLoaded members h.2 hfloat⟩
  | .null, _, _ | .bool b, _, _ | .int n, _, _ | .uint n, _, _ => rfl
  | .dateTime t, _, _ | .date d, _, _ | .string s, _, _ => rfl

theorem areExact_of_areLoaded : (vs : List Value) → areLoaded vs = true → anyFloat vs = false →
    areExact vs = true
  | [], _, _ => rfl
  | v :: rest, h, hfloat => by
    rw [areLoaded, Bool.and_eq_true] at h
    rw [anyFloat, Bool.or_eq_false_iff] at hfloat
    rw [areExact, isExact_of_isLoaded v h.1 hfloat.1, areExact_of_areLoaded rest h.2 hfloat.2]
    rfl

end

mutual

/-- A loaded integer is signed wherever it fits. -/
theorem signed_of_isLoaded : (v : Value) → v.isLoaded = true → v.signed = v
  | .uint n, h => by
    rw [isLoaded, decide_eq_true_eq] at h
    rw [signed, if_neg (UInt64.not_le.2 h)]
  | .list members, h => by
    rw [isLoaded, Bool.and_eq_true] at h
    rw [signed, signeds_of_areLoaded members h.2]
  | .null, _ | .bool b, _ | .int n, _ | .float x, _ => rfl
  | .dateTime t, _ | .date d, _ | .string s, _ => rfl

theorem signeds_of_areLoaded : (vs : List Value) → areLoaded vs = true → signeds vs = vs
  | [], _ => rfl
  | v :: rest, h => by
    rw [areLoaded, Bool.and_eq_true] at h
    rw [signeds, signed_of_isLoaded v h.1, signeds_of_areLoaded rest h.2]

end

/-! ### Reading a value -/

theorem isLoaded_ofWhole (n : Whole) : (ofWhole n).isLoaded = true := by
  unfold ofWhole Whole.toInt64?
  split
  · rfl
  · rename_i h
    split at h
    · cases h
    · rename_i hlarge
      have hfits := n.fits
      have hval : (UInt64.ofNat n.val.toNat).toNat = n.val.toNat := by
        rw [UInt64.toNat_ofNat', Nat.mod_eq_of_lt (by omega)]
      have hmax : (0x7fffffffffffffff : UInt64).toNat = 0x7fffffffffffffff := rfl
      rw [isLoaded, decide_eq_true_eq, UInt64.lt_iff_toNat_lt, hval]
      omega

/-- A time or a date is loaded, whatever text it had. -/
theorem isLoaded_calendar? {j : Json} {v : Value} (h : calendar? j = some v) :
    v.isLoaded = true := by
  unfold calendar? at h
  split at h
  · cases h
    rfl
  · obtain ⟨d, -, rfl⟩ := Option.map_eq_some_iff.1 h
    rfl

/-- Only a text is loaded as a text. -/
theorem eq_string_of_ofJson? {j : Json} {s : String} (h : ofJson? j = some (.string s)) :
    j = .string s := by
  have hcalendar : ∀ j, calendar? j ≠ some (.string s) := by
    intro j hj
    unfold calendar? at hj
    split at hj
    · cases hj
    · obtain ⟨d, -, hd⟩ := Option.map_eq_some_iff.1 hj
      cases hd
  cases j with
  | string s' =>
    cases h
    rfl
  | whole n =>
    rw [ofJson?, ofWhole] at h
    split at h <;> cases h
  | array items =>
    rw [ofJson?] at h
    split at h
    · rename_i hj
      exact absurd (hj.trans h) (hcalendar _)
    · obtain ⟨members, -, hmembers⟩ := Option.map_eq_some_iff.1 h
      cases hmembers
  | object members => exact absurd h (hcalendar _)
  | null | bool | float | unreadable => cases h

theorem ofJsons?_cons {j : Json} {rest : List Json} {vs : List Value}
    (h : ofJsons? (j :: rest) = some vs) :
    ∃ v ws, ofJson? j = some v ∧ ofJsons? rest = some ws ∧ vs = v :: ws := by
  rw [ofJsons?] at h
  obtain ⟨v, hv, h⟩ := Option.bind_eq_some_iff.1 h
  obtain ⟨ws, hws, h⟩ := Option.bind_eq_some_iff.1 h
  cases h
  exact ⟨v, ws, hv, hws, rfl⟩

/-- What no tag stands for is a list, and its only text reads as neither a time nor a date. -/
theorem isTag_of_ofJsons? {items : List Json} {members : List Value}
    (hcalendar : calendar? (.array items) = none) (h : ofJsons? items = some members) :
    isTag members = false := by
  unfold isTag
  split
  · rename_i s
    cases items with
    | nil => cases h
    | cons j rest =>
      obtain ⟨v, ws, hv, hrest, hmembers⟩ := ofJsons?_cons h
      obtain ⟨rfl, rfl⟩ := List.cons.inj hmembers
      obtain rfl := eq_string_of_ofJson? hv
      cases rest with
      | cons k rest =>
        obtain ⟨_, _, -, -, hnil⟩ := ofJsons?_cons hrest
        cases hnil
      | nil =>
        have htag : ∀ tag, tagged? tag (.array [.string s]) = some s := fun _ => rfl
        rw [calendar?, htag, htag, Option.bind_some, Option.bind_some] at hcalendar
        split at hcalendar
        · cases hcalendar
        · rename_i htime
          rw [Option.map_eq_none_iff] at hcalendar
          simp [htime, hcalendar]
  · rfl

mutual

theorem isLoaded_of_ofJson? : (j : Json) → (v : Value) → ofJson? j = some v → v.isLoaded = true
  | .null, _, h | .bool b, _, h | .float x, _, h | .string s, _, h => by
    cases h
    rfl
  | .whole n, _, h => by
    cases h
    exact isLoaded_ofWhole n
  | .array items, v, h => by
    rw [ofJson?] at h
    split at h
    · rename_i hcalendar
      cases h
      exact isLoaded_calendar? hcalendar
    · rename_i hcalendar
      obtain ⟨members, hmembers, rfl⟩ := Option.map_eq_some_iff.1 h
      rw [isLoaded, isTag_of_ofJsons? hcalendar hmembers,
        areLoaded_of_ofJsons? items members hmembers]
      rfl
  | .object members, v, h => by
    rw [ofJson?] at h
    exact isLoaded_calendar? h
  | .unreadable, v, h => by cases h

theorem areLoaded_of_ofJsons? : (js : List Json) → (vs : List Value) → ofJsons? js = some vs →
    areLoaded vs = true
  | [], _, h => by
    cases h
    rfl
  | j :: rest, vs, h => by
    obtain ⟨v, ws, hv, hws, rfl⟩ := ofJsons?_cons h
    rw [areLoaded, isLoaded_of_ofJson? j v hv, areLoaded_of_ofJsons? rest ws hws]
    rfl

end

end Value

/-! ## Decoded fields -/

namespace Json

/-- What is decoded one by one has the property that every item gives. -/
theorem forall_of_mapM {α β : Type} {decode : β → Option α} {P : α → Prop} {items : List β}
    (hdecode : ∀ item ∈ items, ∀ a, decode item = some a → P a) {as : List α}
    (h : items.mapM decode = some as) : ∀ a ∈ as, P a := by
  induction items generalizing as with
  | nil =>
    cases h
    exact List.forall_mem_nil P
  | cons item rest ih =>
    rw [List.forall_mem_cons] at hdecode
    simp only [List.mapM_cons, Option.bind_eq_bind, Option.bind_eq_some_iff, Option.pure_def,
      Option.some.injEq] at h
    obtain ⟨a, ha, bs, hbs, rfl⟩ := h
    exact List.forall_mem_cons.2 ⟨hdecode.1 a ha, ih hdecode.2 hbs⟩

section
variable {α : Type} {decode : Json → Option α} {P : α → Prop} {j : Json}

section
variable {part : Option j.Part} (hdecode : ∀ p : j.Part, ∀ a, decode p.val = some a → P a)
include hdecode

theorem of_required {a : α} (h : required decode part = some a) : P a := by
  cases part with
  | none => cases h
  | some p => exact hdecode p a h

theorem of_defaulted {default a : α} (hdefault : P default)
    (h : defaulted default decode part = some a) : P a := by
  cases part with
  | none =>
    cases h
    exact hdefault
  | some p => exact hdecode p a h

theorem of_optional {a : Option α} (h : optional decode part = some a) : ∀ b ∈ a, P b := by
  cases part with
  | none =>
    cases h
    exact fun b hb => nomatch hb
  | some p =>
    rw [optional] at h
    split at h
    · cases h
      exact fun b hb => nomatch hb
    · obtain ⟨b, hb, rfl⟩ := Option.map_eq_some_iff.1 h
      rintro c ⟨⟩
      exact hdecode p b hb

end

theorem of_list? (hdecode : ∀ item a, decode item = some a → P a) {as : List α}
    (h : list? decode j = some as) : ∀ a ∈ as, P a := by
  cases j with
  | array items => exact forall_of_mapM (fun item _ => hdecode item) h
  | _ => cases h

/-- The second of two items. -/
theorem of_pair? {β : Type} {first : Json → Option β}
    (hdecode : ∀ item a, decode item = some a → P a) {pair : β × α}
    (h : pair? first decode j = some pair) : P pair.2 := by
  unfold pair? at h
  split at h
  · simp only [Option.bind_eq_bind, Option.bind_eq_some_iff, Option.pure_def,
      Option.some.injEq] at h
    obtain ⟨b, -, a, ha, rfl⟩ := h
    exact hdecode _ a ha
  · cases h

end
end Json

open Json

theorem Value.isLoaded_of_listOfJson? (j : Json) (vs : List Value)
    (h : Value.listOfJson? j = some vs) : ∀ v ∈ vs, v.isLoaded = true := by
  cases j with
  | array items =>
    have hloaded := areLoaded_of_ofJsons? items vs h
    rwa [areLoaded_eq_all, List.all_eq_true] at hloaded
  | _ => cases h

theorem RawSql.isLoaded_of_ofJson? (j : Json) (r : RawSql) (h : RawSql.ofJson? j = some r) :
    ∀ v ∈ r.bindings, v.isLoaded = true := by
  unfold RawSql.ofJson? at h
  split at h
  · simp only [Option.bind_eq_bind, Option.bind_eq_some_iff, Option.pure_def,
      Option.some.injEq] at h
    obtain ⟨text, -, bindings, hbindings, rfl⟩ := h
    exact of_defaulted (P := fun vs => ∀ v ∈ vs, v.isLoaded = true)
      (fun p => Value.isLoaded_of_listOfJson? p.val) (List.forall_mem_nil _) hbindings
  · cases h

theorem Join.isLoaded_of_ofJson? (j : Json) (joined : Join) (h : Join.ofJson? j = some joined) :
    ∀ v ∈ joined.allValues, v.isLoaded = true := by
  unfold Join.ofJson? at h
  simp only [Option.bind_eq_bind, Option.pure_def] at h
  split at h
  · -- a table
    split at h
    · simp only [Option.bind_eq_some_iff, Option.some.injEq] at h
      obtain ⟨kind, -, name, -, tableAlias, -, primaryKey, -, foreignKey, -, rfl⟩ := h
      exact List.forall_mem_nil _
    · cases h
  · -- raw SQL
    split at h
    · simp only [Option.bind_eq_some_iff, Option.some.injEq] at h
      obtain ⟨kind, -, sql, hsql, rfl⟩ := h
      exact of_required (fun p => RawSql.isLoaded_of_ofJson? p.val) hsql
    · cases h
  · cases h

theorem Grouping.isLoaded_of_ofJson? (j : Json) (g : Grouping) (h : Grouping.ofJson? j = some g) :
    ∀ v ∈ g.allValues, v.isLoaded = true := by
  unfold Grouping.ofJson? at h
  split at h
  · obtain ⟨c, -, rfl⟩ := Option.map_eq_some_iff.1 h
    exact List.forall_mem_nil _
  · obtain ⟨sql, hsql, rfl⟩ := Option.map_eq_some_iff.1 h
    exact RawSql.isLoaded_of_ofJson? _ sql hsql
  · cases h

/-! ## Queries -/

theorem Expr.forall_mem_listValues {P : Value → Prop} {es : List Expr}
    (h : ∀ e ∈ es, ∀ v ∈ e.allValues, P v) : ∀ v ∈ Expr.listValues es, P v := by
  induction es with
  | nil => exact fun v hv => nomatch hv
  | cons e rest ih =>
    rw [List.forall_mem_cons] at h
    rw [Expr.listValues, List.forall_mem_append]
    exact ⟨h.1, ih h.2⟩

theorem Filter.ofJson?_of_fields {j : Json} {terms connective : Option j.Part}
    (h : j.fields? ["statements", "op"] = some [terms, connective]) :
    Filter.ofJson? j = (do
      return ⟨← Json.defaulted [] Expr.listOfJson? terms,
        ← Json.defaulted .and Connective.ofJson? connective⟩) := by
  rw [Filter.ofJson?, h]
  cases terms <;> rfl

theorem Select.ofJson?_of_fields {j : Json} {table schema tableAlias distinct columns filter joins
    groups sort limits recursion : Option j.Part}
    (h : j.fields? ["table", "schema", "table_alias", "distinct", "columns", "where", "joins",
      "group_by", "sort", "limits", "recursive"] =
        some [table, schema, tableAlias, distinct, columns, filter, joins, groups, sort, limits,
          recursion]) :
    Select.ofJson? j = (do
      let columns ← Json.defaulted [] Expr.listOfJson? columns
      let filter ← Json.defaulted .empty Filter.ofJson? filter
      return {
        table := ← Json.optional Json.string? table
        schema := ← Json.optional Json.string? schema
        tableAlias := ← Json.optional Json.string? tableAlias
        distinct := ← Json.defaulted false Json.bool? distinct
        columns
        filter
        joins := ← Json.defaulted [] (Json.list? Join.ofJson?) joins
        groups := ← Json.defaulted [] (Json.list? Grouping.ofJson?) groups
        sort := ← Json.optional SortKey.ofJson? sort
        limits := ← Json.defaulted .none Limits.ofJson? limits
        recursion := ← Json.optional Recursion.ofJson? recursion }) := by
  rw [Select.ofJson?, h]
  cases columns <;> cases filter <;> rfl

-- The induction is on the size of the document, as the decoders recurse: a part is smaller.
mutual

theorem Expr.isLoaded_of_ofJson? (j : Json) (e : Expr) (h : Expr.ofJson? j = some e) :
    ∀ v ∈ e.allValues, v.isLoaded = true := by
  rw [Expr.ofJson?] at h
  simp only [Option.bind_eq_bind, Option.pure_def] at h
  split at h
  · -- raw
    obtain ⟨sql, hsql, rfl⟩ := Option.map_eq_some_iff.1 h
    rw [Expr.allValues]
    exact RawSql.isLoaded_of_ofJson? _ sql hsql
  · -- column
    split at h
    · simp only [Option.bind_eq_some_iff, Option.some.injEq] at h
      obtain ⟨c, -, label, -, rfl⟩ := h
      simp [Expr.allValues]
    · cases h
  · -- aggregate
    split at h
    · simp only [Option.bind_eq_some_iff, Option.some.injEq] at h
      obtain ⟨function, -, c, -, label, -, rfl⟩ := h
      simp [Expr.allValues]
    · cases h
  · -- raw column
    obtain ⟨sql, hsql, rfl⟩ := Option.map_eq_some_iff.1 h
    rw [Expr.allValues]
    exact RawSql.isLoaded_of_ofJson? _ sql hsql
  · -- part of a date
    split at h
    · simp only [Option.bind_eq_some_iff, Option.some.injEq] at h
      obtain ⟨wrap, -, c, -, label, -, rfl⟩ := h
      simp [Expr.allValues]
    · cases h
  · -- comparison
    split at h
    · simp only [Option.bind_eq_some_iff, Option.some.injEq] at h
      obtain ⟨c, -, op, -, value, hvalue, rfl⟩ := h
      have hloaded := of_defaulted (fun p => Value.isLoaded_of_ofJson? p.val) rfl hvalue
      simpa [Expr.allValues] using hloaded
    · cases h
  · -- between
    split at h
    · simp only [Option.bind_eq_some_iff, Option.some.injEq] at h
      obtain ⟨c, -, low, hlow, high, hhigh, negated, -, rfl⟩ := h
      have hlow' := of_required (fun p => Value.isLoaded_of_ofJson? p.val) hlow
      have hhigh' := of_required (fun p => Value.isLoaded_of_ofJson? p.val) hhigh
      simpa [Expr.allValues] using And.intro hlow' hhigh'
    · cases h
  · -- one of several
    split at h
    · simp only [Option.bind_eq_some_iff, Option.some.injEq] at h
      obtain ⟨c, -, values, hvalues, negated, -, rfl⟩ := h
      rw [Expr.allValues]
      exact of_required (fun p => Value.isLoaded_of_listOfJson? p.val) hvalues
    · cases h
  · -- group
    rename_i part _
    have hpart : sizeOf part.val < sizeOf j := part.property
    obtain ⟨filter, hfilter, rfl⟩ := Option.map_eq_some_iff.1 h
    rw [Expr.allValues]
    exact Filter.isLoaded_of_ofJson? part.val filter hfilter
  · -- existence
    rename_i part _
    split at h
    · rename_i query _ _
      have hquery : sizeOf query.val < sizeOf j := Nat.lt_trans query.property part.property
      simp only [Option.bind_eq_some_iff, Option.some.injEq] at h
      obtain ⟨q, hq, negated, -, rfl⟩ := h
      rw [Expr.allValues]
      exact Select.isLoaded_of_ofJson? query.val q hq
    · cases h
  · cases h
termination_by sizeOf j
decreasing_by all_goals assumption

theorem Expr.areLoaded_of_listOfJson? (j : Json) (es : List Expr)
    (h : Expr.listOfJson? j = some es) : ∀ v ∈ Expr.listValues es, v.isLoaded = true := by
  rw [Expr.listOfJson?] at h
  split at h
  · refine Expr.forall_mem_listValues (forall_of_mapM (fun part _ e he => ?_) h)
    exact Expr.isLoaded_of_ofJson? part.val e he
  · cases h
termination_by sizeOf j
decreasing_by exact part.property

theorem Filter.isLoaded_of_ofJson? (j : Json) (f : Filter) (h : Filter.ofJson? j = some f) :
    ∀ v ∈ f.allValues, v.isLoaded = true := by
  have hshape := h
  rw [Filter.ofJson?] at hshape
  split at hshape
  · rename_i hfields
    rw [Filter.ofJson?_of_fields hfields] at h
    simp only [Option.bind_eq_bind, Option.bind_eq_some_iff, Option.pure_def,
      Option.some.injEq] at h
    obtain ⟨terms, hterms, connective, -, rfl⟩ := h
    rw [Filter.allValues]
    exact of_defaulted (P := fun es => ∀ v ∈ Expr.listValues es, v.isLoaded = true)
      (fun p es hes => Expr.areLoaded_of_listOfJson? p.val es hes) (List.forall_mem_nil _) hterms
  · cases hshape
termination_by sizeOf j
decreasing_by exact p.property

theorem Select.isLoaded_of_ofJson? (j : Json) (q : Select) (h : Select.ofJson? j = some q) :
    ∀ v ∈ q.allValues, v.isLoaded = true := by
  have hshape := h
  rw [Select.ofJson?] at hshape
  split at hshape
  · rename_i hfields
    rw [Select.ofJson?_of_fields hfields] at h
    simp only [Option.bind_eq_bind, Option.bind_eq_some_iff, Option.pure_def,
      Option.some.injEq] at h
    obtain ⟨columns, hcolumns, filter, hfilter, table, -, schema, -, tableAlias, -, distinct, -,
      joins, hjoins, groups, hgroups, sort, -, limits, -, recursion, -, rfl⟩ := h
    rw [Select.allValues, List.forall_mem_append, List.forall_mem_append, List.forall_mem_append,
      List.forall_mem_flatMap, List.forall_mem_flatMap]
    refine ⟨⟨⟨?_, ?_⟩, ?_⟩, ?_⟩
    · exact of_defaulted (P := fun es => ∀ v ∈ Expr.listValues es, v.isLoaded = true)
        (fun p es hes => Expr.areLoaded_of_listOfJson? p.val es hes) (List.forall_mem_nil _)
        hcolumns
    · exact of_defaulted (fun p f hf => Filter.isLoaded_of_ofJson? p.val f hf)
        (List.forall_mem_nil _) hfilter
    · exact of_defaulted (fun p _ => of_list? Join.isLoaded_of_ofJson?) (List.forall_mem_nil _)
        hjoins
    · exact of_defaulted (fun p _ => of_list? Grouping.isLoaded_of_ofJson?)
        (List.forall_mem_nil _) hgroups
  · cases hshape
termination_by sizeOf j
decreasing_by
  · exact p.property
  · exact p.property

end

/-! ## Changes -/

theorem Cell.isLoaded_of_ofJson? (j : Json) (c : Cell) (h : Cell.ofJson? j = some c) :
    ∀ v ∈ c.allValues, v.isLoaded = true := by
  unfold Cell.ofJson? at h
  split at h
  · cases h
    exact List.forall_mem_nil _
  · split at h
    · obtain ⟨v, hv, rfl⟩ := Option.map_eq_some_iff.1 h
      exact List.forall_mem_singleton.2 (Value.isLoaded_of_ofJson? _ v hv)
    · cases h

theorem Row.isLoaded_of_ofJson? (j : Json) (r : Row) (h : Row.ofJson? j = some r) :
    ∀ v ∈ r.allValues, v.isLoaded = true := by
  unfold Row.ofJson? at h
  split at h
  · obtain ⟨fields, hfields, rfl⟩ := Option.map_eq_some_iff.1 h
    rw [Row.allValues, List.forall_mem_flatMap]
    exact of_required (P := fun fields => ∀ field ∈ fields, ∀ v ∈ field.2.allValues,
      v.isLoaded = true) (fun p _ => of_list? fun _ _ => of_pair? Cell.isLoaded_of_ofJson?) hfields
  · cases h

theorem Refresh.isLoaded_of_ofJson? (j : Json) (item : Refresh)
    (h : Refresh.ofJson? j = some item) : ∀ v ∈ item.allValues, v.isLoaded = true := by
  unfold Refresh.ofJson? at h
  split at h
  · obtain ⟨c, -, rfl⟩ := Option.map_eq_some_iff.1 h
    exact List.forall_mem_nil _
  · obtain ⟨sql, hsql, rfl⟩ := Option.map_eq_some_iff.1 h
    exact RawSql.isLoaded_of_ofJson? _ sql hsql
  · cases h

theorem Refresh.areLoaded_of_listOfJson? (j : Json) (items : List Refresh)
    (h : Refresh.listOfJson? j = some items) :
    ∀ item ∈ items, ∀ v ∈ item.allValues, v.isLoaded = true := by
  unfold Refresh.listOfJson? at h
  split at h
  · exact of_required (fun p _ => of_list? Refresh.isLoaded_of_ofJson?) h
  · cases h

theorem Insert.isLoaded_of_ofJson? (j : Json) (q : Insert) (h : Insert.ofJson? j = some q) :
    ∀ v ∈ (Query.insert q).allValues, v.isLoaded = true := by
  unfold Insert.ofJson? at h
  split at h
  · simp only [Option.bind_eq_bind, Option.bind_eq_some_iff, Option.pure_def,
      Option.some.injEq] at h
    obtain ⟨table, -, schema, -, rows, hrows, ignore, -, onDuplicate, hitems, rfl⟩ := h
    rw [Query.allValues, List.forall_mem_append, List.forall_mem_flatMap,
      List.forall_mem_flatMap]
    constructor
    · exact of_defaulted (fun p _ => of_list? Row.isLoaded_of_ofJson?) (List.forall_mem_nil _) hrows
    · have hloaded := of_optional (fun p => Refresh.areLoaded_of_listOfJson? p.val) hitems
      cases onDuplicate with
      | none => exact List.forall_mem_nil _
      | some items => exact hloaded items rfl
  · cases h

theorem Update.isLoaded_of_ofJson? (j : Json) (q : Update) (h : Update.ofJson? j = some q) :
    ∀ v ∈ (Query.update q).allValues, v.isLoaded = true := by
  unfold Update.ofJson? at h
  split at h
  · simp only [Option.bind_eq_bind, Option.bind_eq_some_iff, Option.pure_def,
      Option.some.injEq] at h
    obtain ⟨table, -, schema, -, tableAlias, -, assignments, hassignments, filter, hfilter,
      rfl⟩ := h
    rw [Query.allValues, List.forall_mem_append, List.forall_mem_map]
    constructor
    · exact of_defaulted (P := fun assignments => ∀ a ∈ assignments, a.2.isLoaded = true)
        (fun p _ => of_list? fun _ _ => of_pair? Value.isLoaded_of_ofJson?)
        (List.forall_mem_nil _) hassignments
    · exact of_defaulted (fun p => Filter.isLoaded_of_ofJson? p.val) (List.forall_mem_nil _) hfilter
  · cases h

theorem Delete.isLoaded_of_ofJson? (j : Json) (q : Delete) (h : Delete.ofJson? j = some q) :
    ∀ v ∈ (Query.delete q).allValues, v.isLoaded = true := by
  unfold Delete.ofJson? at h
  split at h
  · simp only [Option.bind_eq_bind, Option.bind_eq_some_iff, Option.pure_def,
      Option.some.injEq] at h
    obtain ⟨table, -, schema, -, tableAlias, -, filter, hfilter, limits, -, truncate, -, rfl⟩ := h
    exact of_defaulted (P := fun f : Filter => ∀ v ∈ f.allValues, v.isLoaded = true)
      (fun p => Filter.isLoaded_of_ofJson? p.val) (List.forall_mem_nil _) hfilter
  · cases h

/-! ## Definitions -/

theorem ColumnDefault.isLoaded_of_ofJson? (j : Json) (c : ColumnDefault)
    (h : ColumnDefault.ofJson? j = some c) : ∀ v ∈ c.allValues, v.isLoaded = true := by
  unfold ColumnDefault.ofJson? at h
  split at h
  · obtain ⟨text, -, rfl⟩ := Option.map_eq_some_iff.1 h
    exact List.forall_mem_nil _
  · obtain ⟨n, -, rfl⟩ := Option.map_eq_some_iff.1 h
    exact List.forall_mem_nil _
  · obtain ⟨x, -, rfl⟩ := Option.map_eq_some_iff.1 h
    exact List.forall_mem_nil _
  · obtain ⟨sql, hsql, rfl⟩ := Option.map_eq_some_iff.1 h
    exact RawSql.isLoaded_of_ofJson? _ sql hsql
  · cases h

theorem Column.isLoaded_of_ofJson? (j : Json) (c : Column) (h : Column.ofJson? j = some c) :
    ∀ v ∈ c.allValues, v.isLoaded = true := by
  unfold Column.ofJson? at h
  split at h
  · simp only [Option.bind_eq_bind, Option.bind_eq_some_iff, Option.pure_def,
      Option.some.injEq] at h
    obtain ⟨name, -, type, -, args, -, members, -, unsigned, -, notNull, -, primaryKey, -,
      autoIncrement, -, default, hdefault, charset, -, collation, -, comment, -, rfl⟩ := h
    have hloaded := of_optional (fun p => ColumnDefault.isLoaded_of_ofJson? p.val) hdefault
    rw [Column.allValues, List.forall_mem_flatMap]
    exact fun c hc => hloaded c (Option.mem_toList.1 hc)
  · cases h

theorem CreateTable.isLoaded_of_ofJson? (j : Json) (q : CreateTable)
    (h : CreateTable.ofJson? j = some q) :
    ∀ v ∈ (Query.createTable q).allValues, v.isLoaded = true := by
  unfold CreateTable.ofJson? at h
  split at h
  · simp only [Option.bind_eq_bind, Option.bind_eq_some_iff, Option.pure_def,
      Option.some.injEq] at h
    obtain ⟨table, -, schema, -, columns, hcolumns, foreignKeys, -, rfl⟩ := h
    rw [Query.allValues, List.forall_mem_flatMap]
    exact of_defaulted (fun p _ => of_list? Column.isLoaded_of_ofJson?) (List.forall_mem_nil _)
      hcolumns
  · cases h

/-! ## Statements -/

/-- Every value of a statement that a document gives is one that documents give. -/
theorem Query.isLoaded_of_ofJson? {j : Json} {q : Query} (h : Query.ofJson? j = some q) :
    ∀ v ∈ q.allValues, v.isLoaded = true := by
  unfold Query.ofJson? at h
  split at h
  · obtain ⟨q, hq, rfl⟩ := Option.map_eq_some_iff.1 h
    exact Select.isLoaded_of_ofJson? _ q hq
  · obtain ⟨q, hq, rfl⟩ := Option.map_eq_some_iff.1 h
    exact Insert.isLoaded_of_ofJson? _ q hq
  · obtain ⟨q, hq, rfl⟩ := Option.map_eq_some_iff.1 h
    exact Update.isLoaded_of_ofJson? _ q hq
  · obtain ⟨q, hq, rfl⟩ := Option.map_eq_some_iff.1 h
    exact Delete.isLoaded_of_ofJson? _ q hq
  · obtain ⟨q, hq, rfl⟩ := Option.map_eq_some_iff.1 h
    exact CreateTable.isLoaded_of_ofJson? _ q hq
  · obtain ⟨q, hq, rfl⟩ := Option.map_eq_some_iff.1 h
    exact List.forall_mem_nil _
  · cases h

end BoundSql
