import BoundSql.Proofs.Reload.Record
import Mathlib.Data.List.Nodup
import Mathlib.Data.List.Perm.Basic

/-!
# Records

A record is made from its fields, and each field is read from the one value under its name. So an
object can lose nothing but defaults and can take on anything else without another record being
made of it, and the array of its fields in their order is the same record.
-/
namespace BoundSql.Json

/-! ## Fields -/

/-- A field of a record: its name, how a value under the name is read, and what is read where the
field is missing. -/
structure Field where
  name : String
  Kind : Type
  decode : Json → Option Kind
  missing : Option Kind

namespace Field

/-- A field that must be there. -/
def required {α : Type} (name : String) (decode : Json → Option α) : Field :=
  ⟨name, α, decode, none⟩

/-- A field with a default. -/
def defaulted {α : Type} (name : String) (default : α) (decode : Json → Option α) : Field :=
  ⟨name, α, decode, some default⟩

/-- A field that may be missing or `null`. -/
def optional {α : Type} (name : String) (decode : Json → Option α) : Field :=
  ⟨name, Option α, nullable? decode, some none⟩

/-- What a field is read as. -/
def read (f : Field) : Option Json → Option f.Kind
  | some j => f.decode j
  | none => f.missing

/-- A value that says no more than that the field is missing. -/
def IsDefault (f : Field) (j : Json) : Prop := ∃ a, f.missing = some a ∧ f.decode j = some a

end Field

/-! ## Making a record -/

/-- What makes a record from its fields. -/
def Maker (α : Type) : List Field → Type
  | [] => α
  | f :: fields => f.Kind → Maker α fields

/-- The record that is made from entries for its fields. -/
def assemble {α : Type} : (fields : List Field) → Maker α fields → List (Option Json) → Option α
  | [], make, [] => some make
  | f :: fields, make, e :: es => (f.read e).bind fun a => assemble fields (make a) es
  | _, _, _ => none

/-- Reads a record. -/
def record {α : Type} (fields : List Field) (make : Maker α fields) (j : Json) : Option α :=
  (j.fields? (fields.map Field.name)).bind fun es =>
    assemble fields make (es.map (·.map Subtype.val))

section
variable {α : Type} {f : Field} {fields : List Field} {a : α}

theorem assemble_cons_eq_some {make : Maker α (f :: fields)} {e : Option Json}
    {es : List (Option Json)} : assemble (f :: fields) make (e :: es) = some a ↔
      ∃ b, f.read e = some b ∧ assemble fields (make b) es = some a := Option.bind_eq_some_iff

/-- A record that is made from some entries is made from any others that are read alike. -/
theorem assemble_mono {entry : Field → Option Json} {es : List (Option Json)}
    {make : Maker α fields}
    (hread : List.Forall₂ (fun f e => ∀ b, f.read (entry f) = some b → f.read e = some b)
      fields es) (h : assemble fields make (fields.map entry) = some a) :
    assemble fields make es = some a := by
  induction hread with
  | nil => exact h
  | cons hf _ ih =>
    rw [List.map_cons, assemble_cons_eq_some] at h
    obtain ⟨b, hb, h⟩ := h
    exact assemble_cons_eq_some.2 ⟨b, hf b hb, ih h⟩

/-- One entry among others. -/
theorem assemble_append_cons {before after : List (Option Json)} {e e' : Option Json}
    {make : Maker α fields} (hfield : fields[before.length]? = some f)
    (hread : ∀ b, f.read e = some b → f.read e' = some b)
    (h : assemble fields make (before ++ e :: after) = some a) :
    assemble fields make (before ++ e' :: after) = some a := by
  induction before generalizing fields with
  | nil =>
    cases fields with
    | nil => cases hfield
    | cons g fields =>
      cases hfield
      obtain ⟨b, hb, h⟩ := assemble_cons_eq_some.1 h
      exact assemble_cons_eq_some.2 ⟨b, hread b hb, h⟩
  | cons d before ih =>
    cases fields with
    | nil => cases hfield
    | cons g fields =>
      obtain ⟨b, hb, h⟩ := assemble_cons_eq_some.1 h
      exact assemble_cons_eq_some.2 ⟨b, hb, ih hfield h⟩

end

/-! ## Entries -/

namespace Field

variable {α : Type} {j : Json} (name : String) (decode : Json → Option α) (e : Option j.Part)

theorem read_required :
    (required name decode).read (e.map Subtype.val) = Json.required decode e := by
  cases e <;> rfl

theorem read_defaulted (default : α) :
    (defaulted name default decode).read (e.map Subtype.val) =
      Json.defaulted default decode e := by
  cases e <;> rfl

theorem read_optional :
    (optional name decode).read (e.map Subtype.val) = Json.optional decode e := by
  cases e <;> rfl

end Field

theorem length_fields? {names : List String} {j : Json} {es : List (Option j.Part)}
    (h : j.fields? names = some es) : es.length = names.length := by
  unfold fields? at h
  split at h
  · split at h
    · rename_i items hlength
      cases h
      rw [List.length_append, List.length_map, parts, List.length_attachWith,
        List.length_replicate]
      omega
    · cases h
  · split at h
    · cases h
      rw [List.length_map]
    · cases h
  · cases h

/-- Something holds of any entries for these names. -/
def ForEntries {α : Type} : List String → (List α → Prop) → Prop
  | [], p => p []
  | _ :: names, p => ∀ e, ForEntries names fun es => p (e :: es)

theorem ForEntries.of_length {α : Type} {names : List String} {p : List α → Prop}
    (h : ForEntries names p) {es : List α} (hlength : es.length = names.length) : p es := by
  induction names generalizing p es with
  | nil =>
    rw [List.length_eq_zero_iff.1 hlength]
    exact h
  | cons name names ih =>
    cases es with
    | nil => cases hlength
    | cons e es => exact ih (h e) (Nat.succ.inj hlength)

/-- A decoder reads a record if it makes the same of the same entries. -/
theorem eq_record {α : Type} {j : Json} {fields : List Field} {make : Maker α fields}
    (names : List String) {result : Option α} (hnames : fields.map Field.name = names)
    (hnone : j.fields? names = none → result = none)
    (hsome : ForEntries names fun es => j.fields? names = some es →
      result = assemble fields make (es.map (·.map Subtype.val))) :
    result = record fields make j := by
  subst hnames
  rw [record]
  cases h : j.fields? (fields.map Field.name) with
  | none => exact hnone h
  | some es => exact hsome.of_length (length_fields? h) h

/-! ## Objects -/

/-- Everything under a name. -/
def under (name : String) (members : List (String × Json)) : List Json :=
  (members.filter fun m => m.1 == name).map Prod.snd

section
variable {name : String} {j : Json} {members : List (String × Json)}

theorem under_append (left right : List (String × Json)) :
    under name (left ++ right) = under name left ++ under name right := by
  simp [under]

theorem under_cons_self : under name ((name, j) :: members) = j :: under name members := by
  simp [under]

theorem under_cons_of_ne {other : String} (h : other ≠ name) :
    under name ((other, j) :: members) = under name members := by
  simp [under, h]

theorem under_eq_nil (h : ∀ m ∈ members, m.1 ≠ name) : under name members = [] := by
  simpa [under] using h

/-- What stands under a name is the only thing there. -/
theorem head?_under (h : (name, j) ∈ members) (hunique : (under name members).length ≤ 1) :
    (under name members).head? = some j := by
  have hj : j ∈ under name members :=
    List.mem_map.2 ⟨(name, j), List.mem_filter.2 ⟨h, beq_self_eq_true name⟩, rfl⟩
  match under name members, hunique, hj with
  | [k], _, hj => rw [List.mem_singleton.1 hj, List.head?_cons]

theorem length_under : (under name members).length = members.countP (·.1 == name) := by
  simp [under, List.countP_eq_length_filter]

theorem member?_val : (member? name members).map Subtype.val = (under name members).head? := by
  have hattach : (members.attach.find? fun m => m.val.1 == name).map Subtype.val =
      members.find? (·.1 == name) := by
    have hmap := List.find?_map (p := (·.1 == name)) (f := Subtype.val) (l := members.attach)
    rw [List.attach_map_subtype_val] at hmap
    exact hmap.symm
  rw [under, List.head?_map, List.head?_filter, ← hattach, Option.map_map, member?,
    Option.map_map]
  rfl

end

section
variable {α : Type} {f : Field} {fields : List Field} {make : Maker α fields} {a : α}

/-- An object is read field by field, from the one value under each name. -/
theorem record_object_eq_some {members : List (String × Json)} :
    record fields make (.object members) = some a ↔
      (∀ f ∈ fields, (under f.name members).length ≤ 1) ∧
        assemble fields make (fields.map fun f => (under f.name members).head?) = some a := by
  have hentries : ((fields.map Field.name).map (member? · members)).map (·.map Subtype.val) =
      fields.map fun f => (under f.name members).head? := by
    simp only [List.map_map]
    exact List.map_congr_left fun f _ => member?_val
  have hunique : ((fields.map Field.name).all fun name => members.countP (·.1 == name) ≤ 1) =
      true ↔ ∀ f ∈ fields, (under f.name members).length ≤ 1 := by
    simp [length_under]
  rw [record, fields?]
  by_cases h : ∀ f ∈ fields, (under f.name members).length ≤ 1
  · rw [if_pos (hunique.2 h), Option.bind_some, hentries, and_iff_right h]
  · rw [if_neg (h ∘ hunique.1), Option.bind_none, iff_false_left (by simp)]
    exact fun hsome => h hsome.1

/-- Another object is the same record if there is as little under each name and it is read alike. -/
theorem record_object_mono {members members' : List (String × Json)}
    (hfields : ∀ f ∈ fields, (under f.name members).length ≤ 1 →
      (under f.name members').length ≤ 1 ∧
        ∀ b, f.read (under f.name members).head? = some b →
          f.read (under f.name members').head? = some b)
    (h : record fields make (.object members) = some a) :
    record fields make (.object members') = some a := by
  obtain ⟨hunique, h⟩ := record_object_eq_some.1 h
  refine record_object_eq_some.2 ⟨fun f hf => (hfields f hf (hunique f hf)).1, ?_⟩
  refine assemble_mono (List.forall₂_map_right_iff.2 (List.forall₂_same.2 fun f hf => ?_)) h
  exact (hfields f hf (hunique f hf)).2

theorem record_permuted {members members' : List (String × Json)} (hperm : members.Perm members')
    (h : record fields make (.object members) = some a) :
    record fields make (.object members') = some a := by
  refine record_object_mono (fun f _ hunique => ?_) h
  have hunder : (under f.name members).Perm (under f.name members') :=
    (hperm.filter _).map _
  have heq : under f.name members' = under f.name members := by
    match hj : under f.name members, hunique with
    | [], _ => exact List.Perm.eq_nil (hj ▸ hunder.symm)
    | [j], _ => exact List.perm_singleton.1 (hj ▸ hunder.symm)
  rw [heq]
  exact ⟨hunique, fun _ hb => hb⟩

/-- What stands under the name of no field is passed over. -/
theorem record_ignored {ignored ignored' before after : List (String × Json)}
    (hname : ∀ m ∈ ignored ++ ignored', m.1 ∉ fields.map Field.name)
    (h : record fields make (.object (before ++ (ignored ++ after))) = some a) :
    record fields make (.object (before ++ (ignored' ++ after))) = some a := by
  refine record_object_mono (fun f hf hunique => ?_) h
  have hnone : under f.name ignored = [] ∧ under f.name ignored' = [] := by
    rw [← List.append_eq_nil_iff, ← under_append]
    exact under_eq_nil fun m hm heq => hname m hm (List.mem_map.2 ⟨f, hf, heq.symm⟩)
  simp only [under_append, hnone] at hunique ⊢
  exact ⟨hunique, fun _ hb => hb⟩

/-- A field is read from the one value under its name: it may be read from another one there, or
from nothing. -/
theorem record_exchanged (hnames : (fields.map Field.name).Nodup) (hf : f ∈ fields) {j : Json}
    {e : Option Json} (hread : ∀ b, f.decode j = some b → f.read e = some b)
    {before after : List (String × Json)}
    (h : record fields make (.object (before ++ (f.name, j) :: after)) = some a) :
    record fields make (.object (before ++ (e.toList.map (f.name, ·) ++ after))) = some a := by
  refine record_object_mono (fun g hg hunique => ?_) h
  by_cases heq : f.name = g.name
  · obtain rfl : f = g := List.inj_on_of_nodup_map hnames hf hg heq
    have hself : under f.name (e.toList.map (f.name, ·)) = e.toList := by
      cases e <;> simp [under]
    simp only [under_append, under_cons_self, hself] at hunique ⊢
    obtain ⟨hbefore, hafter⟩ : under f.name before = [] ∧ under f.name after = [] := by
      simpa [← List.length_eq_zero_iff, ← Nat.add_assoc] using hunique
    rw [hbefore, hafter]
    cases e with
    | none => exact ⟨Nat.zero_le 1, hread⟩
    | some j' => exact ⟨Nat.le_refl 1, hread⟩
  · have hother : under g.name (e.toList.map (f.name, ·)) = [] := by
      cases e <;> simp [under, heq]
    simp only [under_append, under_cons_of_ne heq, hother, List.nil_append] at hunique ⊢
    exact ⟨hunique, fun _ hb => hb⟩

/-! ## Arrays -/

/-- The items of an array are the entries of the first fields. -/
theorem record_array {items : List Json} (hlength : items.length ≤ fields.length) :
    record fields make (.array items) =
      assemble fields make
        (items.map some ++ List.replicate (fields.length - items.length) none) := by
  rw [record, fields?, List.length_map, if_pos hlength, Option.bind_some, List.map_append,
    List.map_replicate, List.map_map]
  have hval : (parts items).map Subtype.val = items :=
    List.attachWith_map_subtype_val fun _ => sizeOf_item_lt
  have hparts : (parts items).map (Option.map Subtype.val ∘ some) = items.map some := by
    conv_rhs => rw [← hval, List.map_map]
    rfl
  rw [hparts, Option.map_none]

/-- The values of all fields in their order, with a default for each field that is missing. -/
theorem record_arranged {members : List (String × Json)} {items : List Json}
    (hitems : List.Forall₂ (fun f j => (f.name, j) ∈ members ∨
      (∀ m ∈ members, m.1 ≠ f.name) ∧ f.IsDefault j) fields items)
    (h : record fields make (.object members) = some a) :
    record fields make (.array items) = some a := by
  obtain ⟨hunique, h⟩ := record_object_eq_some.1 h
  have hlength := hitems.length_eq
  rw [record_array (Nat.le_of_eq hlength.symm), hlength, Nat.sub_self, List.replicate_zero,
    List.append_nil]
  refine assemble_mono (List.forall₂_map_right_iff.2 ?_) h
  refine ((List.forall₂_and_left _ _).2 ⟨hunique, hitems⟩).imp ?_
  rintro f j ⟨hunique, hmem | ⟨hnone, d, hmissing, hdecode⟩⟩ b hb
  · rwa [head?_under hmem hunique] at hb
  · rw [under_eq_nil hnone] at hb
    exact hdecode.trans (hmissing.symm.trans hb)

/-- One item of the array. -/
theorem record_item {before after : List Json} {j j' : Json}
    (hfield : fields[before.length]? = some f)
    (hread : ∀ b, f.decode j = some b → f.decode j' = some b)
    (h : record fields make (.array (before ++ j :: after)) = some a) :
    record fields make (.array (before ++ j' :: after)) = some a := by
  by_cases hlength : (before ++ j :: after).length ≤ fields.length
  · rw [record_array hlength] at h
    rw [record_array (by simpa using hlength)]
    simp only [List.map_append, List.map_cons, List.append_assoc, List.cons_append,
      List.length_append, List.length_cons] at h ⊢
    exact assemble_append_cons (by rwa [List.length_map]) hread h
  · rw [record, fields?, List.length_map, if_neg hlength] at h
    cases h

end

end BoundSql.Json
