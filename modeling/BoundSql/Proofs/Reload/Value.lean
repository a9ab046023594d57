import BoundSql.Proofs.Calendar
import BoundSql.Proofs.Json.Text
import BoundSql.Proofs.Reload.Basic

/-!
# Values read back

Every value is read back from its document as the signed value, provided that the document says
all of it. The alternatives of a document are tried in an order; what keeps them apart is that
only a list of one text looks like the tag of another kind.
-/
namespace BoundSql

/-! ## Integers -/

namespace Whole

theorem toInt64?_ofInt64 (n : Int64) : (ofInt64 n).toInt64? = some n := by
  have hlt : n.toInt < 0x8000000000000000 := n.toInt_lt
  rw [toInt64?, ofInt64, if_pos hlt, Int64.ofInt_toInt]

theorem toUInt64?_ofUInt64 (n : UInt64) : (ofUInt64 n).toUInt64? = some n := by
  have hnonneg : 0 ≤ (n.toNat : Int) := Int.natCast_nonneg _
  rw [toUInt64?, ofUInt64, if_pos hnonneg, Int.toNat_natCast, UInt64.ofNat_toNat]

theorem toUInt32?_ofUInt32 (n : UInt32) : (ofUInt32 n).toUInt32? = some n := by
  have hrange : 0 ≤ (n.toNat : Int) ∧ (n.toNat : Int) < 0x100000000 := by
    have hlt := n.toNat_lt
    omega
  rw [toUInt32?, ofUInt32, if_pos hrange, Int.toNat_natCast, UInt32.ofNat_toNat]

end Whole

namespace Value

open Json

theorem ofWhole_ofInt64 (n : Int64) : ofWhole (.ofInt64 n) = .int n := by
  rw [ofWhole, Whole.toInt64?_ofInt64]

theorem ofWhole_ofUInt64 (n : UInt64) : ofWhole (.ofUInt64 n) = (Value.uint n).signed := by
  have hle : n ≤ 0x7fffffffffffffff ↔ (n.toNat : Int) < 0x8000000000000000 := by
    rw [UInt64.le_iff_toNat_le]
    have hmax : (0x7fffffffffffffff : UInt64).toNat = 0x7fffffffffffffff := rfl
    omega
  have hsigned : Int64.ofInt n.toNat = n.toInt64 := by
    rw [Int64.ofInt_eq_ofNat]
    exact congrArg UInt64.toInt64 (UInt64.ofNat_toNat ..)
  rw [ofWhole, Whole.toInt64?, Whole.ofUInt64, signed]
  by_cases h : n ≤ 0x7fffffffffffffff
  · rw [if_pos (hle.1 h), if_pos h, hsigned]
  · rw [if_neg (mt hle.2 h), if_neg h, Int.toNat_natCast, UInt64.ofNat_toNat]

/-! ## Times and dates -/

theorem calendar?_dateTime (t : DateTime) :
    calendar? (.object [("datetime", .string t.text)]) = some (.dateTime t) := by
  have htag : tagged? "datetime" (.object [("datetime", .string t.text)]) = some t.text := rfl
  rw [calendar?, htag, Option.bind_some, t.parse?_text]

theorem calendar?_date (d : Date) :
    calendar? (.object [("date", .string d.text)]) = some (.date d) := by
  have hother : tagged? "datetime" (.object [("date", .string d.text)]) = none := rfl
  have htag : tagged? "date" (.object [("date", .string d.text)]) = some d.text := rfl
  rw [calendar?, hother, htag, Option.bind_none, Option.bind_some, d.parse?_text]
  rfl

theorem eq_string_of_toJson {v : Value} {s : String} (h : v.toJson = .string s) :
    v = .string s := by
  cases v with
  | string s' =>
    cases h
    rfl
  | float x =>
    rw [toJson, ofBinary64] at h
    split at h <;> cases h
  | _ => cases h

theorem tagged?_array {tag : String} {items : List Json} {s : String}
    (h : tagged? tag (.array items) = some s) : items = [.string s] := by
  unfold tagged? at h
  split at h
  · rename_i he
    cases he
  · rename_i he
    cases he
    cases h
    rfl
  · cases h

/-- A list is taken for nothing else, unless it is a text that reads as a time or a date. -/
theorem calendar?_array {members : List Value} (h : isTag members = false) :
    calendar? (.array (toJsons members)) = none := by
  have hnone : ∀ {tag : String} {α : Type} {parse? : String → Option α},
      (∀ s, members = [.string s] → parse? s = none) →
      (tagged? tag (.array (toJsons members))).bind parse? = none := by
    intro tag α parse? hparse
    cases htag : tagged? tag (.array (toJsons members)) with
    | none => rfl
    | some s =>
      have hitems := tagged?_array htag
      rw [toJsons_eq_map, List.map_eq_singleton_iff] at hitems
      obtain ⟨v, rfl, hv⟩ := hitems
      exact hparse s (by rw [eq_string_of_toJson hv])
  have hparse : ∀ s, members = [.string s] → DateTime.parse? s = none ∧ Date.parse? s = none := by
    rintro s rfl
    simpa [isTag] using h
  rw [calendar?, hnone fun s hs => (hparse s hs).1, hnone fun s hs => (hparse s hs).2]
  rfl

/-! ## Reading -/

mutual

/-- A value comes back as the signed value. -/
theorem ofJson?_toJson : (v : Value) → v.isExact = true → ofJson? v.toJson = some v.signed
  | .null, _ => rfl
  | .bool _, _ => rfl
  | .int n, _ => by
    rw [toJson, ofInt64, ofJson?, ofWhole_ofInt64]
    rfl
  | .uint n, _ => by rw [toJson, ofUInt64, ofJson?, ofWhole_ofUInt64]
  | .dateTime t, _ => by
    rw [toJson, ofJson?, calendar?_dateTime]
    rfl
  | .date d, _ => by
    rw [toJson, ofJson?, calendar?_date]
    rfl
  | .string _, _ => rfl
  | .list members, h => by
    rw [isExact, Bool.and_eq_true, Bool.not_eq_true'] at h
    rw [toJson, ofJson?, calendar?_array h.1, signed]
    simp only [ofJsons?_toJsons members h.2, Option.map_some]

theorem ofJsons?_toJsons : (vs : List Value) → areExact vs = true →
    ofJsons? (toJsons vs) = some (signeds vs)
  | [], _ => rfl
  | v :: rest, h => by
    rw [areExact, Bool.and_eq_true] at h
    rw [toJsons, ofJsons?, ofJson?_toJson v h.1, ofJsons?_toJsons rest h.2, signeds]
    rfl

end

theorem listOfJson?_ofList {vs : List Value} (h : ∀ v ∈ vs, v.isExact = true) :
    listOfJson? (.ofList toJson vs) = some (vs.map signed) := by
  have hexact : areExact vs = true := by rw [areExact_eq_all, List.all_eq_true.2 h]
  rw [ofList, listOfJson?, ← toJsons_eq_map, ofJsons?_toJsons vs hexact, signeds_eq_map]

end Value
end BoundSql
