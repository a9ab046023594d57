import BoundSql.Proofs.Reload.Value

/-!
# Texts read back

A text is read back as a text, whatever it looks like, and so is a list of texts, unless its only
member reads as a time or a date: then the array is taken for the tag of one. This may happen at any
depth of a list, and it is the only change.
-/
namespace BoundSql.Value

open Json

mutual

/-- A text, or a list of texts and of such lists. -/
def isTextual : Value → Bool
  | .string _ => true
  | .list members => areTextual members
  | _ => false

def areTextual : List Value → Bool
  | [] => true
  | v :: rest => v.isTextual && areTextual rest

end

/-- The time or else the date that the only text of a list reads as. -/
def ofTag? : List Value → Option Value
  | [.string s] =>
    match DateTime.parse? s with
    | some t => some (.dateTime t)
    | none => (Date.parse? s).map .date
  | _ => none

mutual

/-- What a document makes of texts and lists of texts. -/
def reread : Value → Value
  | .list members => (ofTag? members).getD (.list (rereads members))
  | v => v

def rereads : List Value → List Value
  | [] => []
  | v :: rest => v.reread :: rereads rest

end

/-! ## Tags -/

theorem isSome_ofTag? (members : List Value) : (ofTag? members).isSome = isTag members := by
  rcases members with _ | ⟨v, _ | ⟨w, rest⟩⟩
  · rfl
  · cases v
    case string s =>
      rw [ofTag?, isTag]
      cases DateTime.parse? s with
      | some t => rfl
      | none => exact Option.isSome_map
    all_goals rfl
  · cases v <;> rfl

theorem ofTag?_ne_list {members : List Value} {v : Value} (h : ofTag? members = some v)
    (others : List Value) : v ≠ .list others := by
  rintro rfl
  unfold ofTag? at h
  split at h
  · split at h
    · cases h
    · simp at h
  · cases h

/-- An array of one text is the only one that may be a tag. -/
theorem calendar?_toJsons (members : List Value) :
    calendar? (.array (toJsons members)) = ofTag? members := by
  cases htag : ofTag? members with
  | none =>
    apply calendar?_array
    rw [← isSome_ofTag?, htag, Option.isSome_none]
  | some v =>
    obtain ⟨s, rfl⟩ : ∃ s, members = [.string s] := by
      unfold ofTag? at htag
      split at htag
      · exact ⟨_, rfl⟩
      · cases htag
    rw [← htag]
    rfl

/-! ## Reading -/

mutual

theorem isExact_toJson_of_isTextual : (v : Value) → v.isTextual = true → v.toJson.isExact = true
  | .string _, _ => rfl
  | .null, h | .bool _, h | .int _, h | .uint _, h | .float _, h | .dateTime _, h | .date _, h => by
    cases h
  | .list members, h => by
    rw [isTextual] at h
    rw [toJson, Json.isExact, itemsExact_toJsons_of_areTextual members h]

theorem itemsExact_toJsons_of_areTextual : (vs : List Value) → areTextual vs = true →
    itemsExact (toJsons vs) = true
  | [], _ => rfl
  | v :: rest, h => by
    rw [areTextual, Bool.and_eq_true] at h
    rw [toJsons, itemsExact, isExact_toJson_of_isTextual v h.1,
      itemsExact_toJsons_of_areTextual rest h.2, Bool.and_true]

end

mutual

theorem ofJson?_toJson_of_isTextual : (v : Value) → v.isTextual = true →
    ofJson? v.toJson = some v.reread
  | .string _, _ => rfl
  | .null, h | .bool _, h | .int _, h | .uint _, h | .float _, h | .dateTime _, h | .date _, h => by
    cases h
  | .list members, h => by
    rw [isTextual] at h
    rw [toJson, ofJson?, calendar?_toJsons, reread]
    cases ofTag? members with
    | some v => rfl
    | none => simp only [ofJsons?_toJsons_of_areTextual members h, Option.map_some,
        Option.getD_none]

theorem ofJsons?_toJsons_of_areTextual : (vs : List Value) → areTextual vs = true →
    ofJsons? (toJsons vs) = some (rereads vs)
  | [], _ => rfl
  | v :: rest, h => by
    rw [areTextual, Bool.and_eq_true] at h
    rw [toJsons, ofJsons?, ofJson?_toJson_of_isTextual v h.1,
      ofJsons?_toJsons_of_areTextual rest h.2, rereads]
    rfl

end

mutual

/-- Nothing changes exactly if no list is a tag. -/
theorem reread_eq_self_iff : (v : Value) → v.isTextual = true →
    (v.reread = v ↔ v.isExact = true)
  | .string _, _ => ⟨fun _ => rfl, fun _ => rfl⟩
  | .null, h | .bool _, h | .int _, h | .uint _, h | .float _, h | .dateTime _, h | .date _, h => by
    cases h
  | .list members, h => by
    rw [isTextual] at h
    rw [reread, isExact, ← isSome_ofTag?]
    cases htag : ofTag? members with
    | some v => simpa using ofTag?_ne_list htag members
    | none => simpa using rereads_eq_self_iff members h

theorem rereads_eq_self_iff : (vs : List Value) → areTextual vs = true →
    (rereads vs = vs ↔ areExact vs = true)
  | [], _ => ⟨fun _ => rfl, fun _ => rfl⟩
  | v :: rest, h => by
    rw [areTextual, Bool.and_eq_true] at h
    rw [rereads, areExact, List.cons.injEq, reread_eq_self_iff v h.1,
      rereads_eq_self_iff rest h.2, Bool.and_eq_true]

end

/-- A text, or a list of texts at any depth that JSON allows, is read back from its document as it
was, except that a list of one text that reads as a time or a date is read as that: the value itself
comes back exactly if it has no such list. -/
theorem parse?_compact_of_isTextual {v : Value} (h : v.isTextual = true)
    (hdepth : v.toJson.depth ≤ Reader.depthLimit) :
    Value.parse? v.toJson.compact = some v.reread ∧
      (Value.parse? v.toJson.compact = some v ↔ v.isExact = true) := by
  have hread : Value.parse? v.toJson.compact = some v.reread := by
    rw [Value.parse?, Json.parse?_compact (isExact_toJson_of_isTextual v h) hdepth]
    exact ofJson?_toJson_of_isTextual v h
  refine ⟨hread, ?_⟩
  rw [hread, Option.some.injEq]
  exact reread_eq_self_iff v h

/-- Texts that look like other values, at two depths. -/
def guises : Value :=
  .list [.string "2024-02-30", .list [.string "null"], .list [.string "2024-02-29", .string "5"],
    .string "D2024-02-29T00:00:00"]

/-- They come back as they were; with a day alone in a list inside, that list does not. -/
theorem parse?_compact_guises :
    guises.isTextual = true ∧ guises.toJson.depth ≤ Reader.depthLimit ∧
      Value.parse? guises.toJson.compact = some guises ∧
      Value.parse? (list [guises, .list [.string "2024-02-29"]]).toJson.compact ≠
        some (.list [guises, .list [.string "2024-02-29"]]) := by
  have hdepth : guises.toJson.depth ≤ Reader.depthLimit := by decide
  have hexact : guises.isExact = true := by decide +kernel
  have htag : (list [guises, .list [.string "2024-02-29"]]).isExact ≠ true := by decide +kernel
  exact ⟨rfl, hdepth, (parse?_compact_of_isTextual rfl hdepth).2.2 hexact,
    fun h => htag ((parse?_compact_of_isTextual rfl (by decide)).2.1 h)⟩

theorem isDay_leapDay : Calendar.IsDay 2024 2 29 := by
  decide

/-- A leap day. -/
def leapDay : Date := ⟨2024, 2, 29, isDay_leapDay⟩

/-- A list of a text that reads as a day comes back as the day. -/
theorem parse?_compact_leapDay :
    (list [.string "2024-02-29"]).isTextual = true ∧
      (list [.string "2024-02-29"]).toJson.compact = "[\x222024-02-29\x22]" ∧
      Value.parse? "[\x222024-02-29\x22]" = some (.date leapDay) ∧
      some (.date leapDay) ≠ some (list [.string "2024-02-29"]) := by
  have hcompact : (list [.string "2024-02-29"]).toJson.compact = "[\x222024-02-29\x22]" := by decide
  have htag : ofTag? [.string "2024-02-29"] = some (.date leapDay) := by
    have htime : (DateTime.parse? "2024-02-29").isNone = true := by decide +kernel
    have hdate : Date.parse? "2024-02-29" = some leapDay := by decide +kernel
    rw [ofTag?, Option.isNone_iff_eq_none.1 htime, hdate]
    rfl
  refine ⟨rfl, hcompact, ?_, by simp⟩
  rw [← hcompact, Value.parse?, Json.parse?_compact rfl (by decide)]
  have hread := ofJson?_toJson_of_isTextual (.list [.string "2024-02-29"]) rfl
  rw [reread, htag] at hread
  exact hread

end BoundSql.Value
