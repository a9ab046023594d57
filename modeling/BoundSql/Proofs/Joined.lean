import BoundSql.Proofs.Layout.Piece

/-!
# Joined fragments

A join keeps the parts that have text and drops the others together with their values. So it has
text if some part has, and its values are those of the parts with text, whatever stands between
them.
-/
namespace BoundSql

/-- The text in front of one part of a join of texts and the text behind it. -/
theorem exists_intercalate (separator : String) (left right : List String) :
    ∃ front back, ∀ s,
      String.intercalate separator (left ++ s :: right) = front ++ s ++ back := by
  have hright : ∃ back, ∀ s, String.intercalate separator (s :: right) = s ++ back := by
    cases right with
    | nil => exact ⟨"", fun s => by rw [String.intercalate_singleton, String.append_empty]⟩
    | cons t rest =>
      exact ⟨separator ++ String.intercalate separator (t :: rest), fun s => by
        rw [String.intercalate_cons_of_ne_nil (by simp), String.append_assoc]⟩
  obtain ⟨back, hback⟩ := hright
  cases left with
  | nil => exact ⟨"", back, fun s => by rw [List.nil_append, hback, String.empty_append]⟩
  | cons t rest =>
    refine ⟨String.intercalate separator (t :: rest) ++ separator, back, fun s => ?_⟩
    rw [String.intercalate_append_of_ne_nil (by simp) (by simp), hback, String.append_assoc,
      String.append_assoc, String.append_assoc]

namespace Fragment

/-- The values that a part brings into a join; without text it brings none. -/
def kept (f : Fragment) : List Value := if f.isEmpty then [] else f.bindings

theorem kept_of_isEmpty {f : Fragment} (h : f.isEmpty = true) : f.kept = [] := if_pos h

theorem kept_of_not_isEmpty {f : Fragment} (h : f.isEmpty = false) : f.kept = f.bindings := by
  rw [kept, h, if_neg Bool.false_ne_true]

@[simp] theorem kept_ofText (s : String) : (ofText s).kept = [] := ite_self []

@[simp] theorem isEmpty_append (f g : Fragment) : (f ++ g).isEmpty = (f.isEmpty && g.isEmpty) := by
  rw [Bool.eq_iff_iff, Bool.and_eq_true, isEmpty_iff, isEmpty_iff, isEmpty_iff, text_append,
    String.append_eq_empty_iff]

/-! ## Parts one by one -/

variable (separator : String)

theorem joined_cons_of_isEmpty {f : Fragment} (parts : List Fragment) (h : f.isEmpty = true) :
    joined separator (f :: parts) = joined separator parts := by
  simp [joined, h]

/-- The separator stands behind a part if another part with text follows. -/
theorem joined_cons (f : Fragment) (parts : List Fragment) (h : f.isEmpty = false) :
    joined separator (f :: parts) =
      if parts.all isEmpty then f else f ++ ofText separator ++ joined separator parts := by
  simp only [joined]
  rw [List.filter_cons_of_pos (by simp [h])]
  split
  · rename_i hparts
    have hnone : parts.filter (fun f => !f.isEmpty) = [] := by
      simpa [List.filter_eq_nil_iff] using hparts
    simp [hnone]
  · rename_i hparts
    obtain ⟨g, hg, hgtext⟩ : ∃ g ∈ parts, g.isEmpty = false := by simpa using hparts
    have hsome : parts.filter (fun f => !f.isEmpty) ≠ [] :=
      List.ne_nil_of_mem (List.mem_filter.2 ⟨hg, by simp [hgtext]⟩)
    ext1
    · rw [List.map_cons, String.intercalate_cons_of_ne_nil (by simpa using hsome)]
      rfl
    · simp

theorem isEmpty_joined (parts : List Fragment) :
    (joined separator parts).isEmpty = parts.all isEmpty := by
  induction parts with
  | nil => rfl
  | cons f rest ih =>
    cases hf : f.isEmpty with
    | true => rw [joined_cons_of_isEmpty separator rest hf, ih, List.all_cons, hf, Bool.true_and]
    | false =>
      rw [joined_cons separator f rest hf, List.all_cons, hf, Bool.false_and]
      split <;> simp [hf]

theorem bindings_joined (parts : List Fragment) :
    (joined separator parts).bindings = parts.flatMap kept := by
  simp only [joined]
  induction parts with
  | nil => rfl
  | cons f rest ih =>
    rw [List.flatMap_cons, List.filter_cons, ← ih]
    cases hf : f.isEmpty <;> simp [kept, hf]

/-- No value is bound beside an empty text. -/
theorem kept_joined (parts : List Fragment) :
    (joined separator parts).kept = (joined separator parts).bindings := by
  cases h : (joined separator parts).isEmpty with
  | false => exact kept_of_not_isEmpty h
  | true =>
    rw [kept_of_isEmpty h, bindings_joined]
    rw [isEmpty_joined, List.all_eq_true] at h
    exact (List.flatMap_eq_nil_iff.2 fun f hf => kept_of_isEmpty (h f hf)).symm

/-- Parts that all have text are all kept. -/
theorem joined_eq {parts : List Fragment} (h : ∀ f ∈ parts, f.isEmpty = false) :
    joined separator parts =
      ⟨String.intercalate separator (parts.map text), parts.flatMap bindings⟩ := by
  have hall : parts.filter (fun f => !f.isEmpty) = parts :=
    List.filter_eq_self.2 fun f hf => by simp [h f hf]
  rw [joined, hall]

/-! ## Surrounded fragments -/

variable (before after : String) (f : Fragment)

@[simp] theorem bindings_surrounded : (f.surrounded before after).bindings = f.bindings := by
  unfold surrounded
  split <;> simp

@[simp] theorem isEmpty_surrounded : (f.surrounded before after).isEmpty = f.isEmpty := by
  unfold surrounded
  split
  · rfl
  · rename_i h
    rw [Bool.not_eq_true] at h
    simp [h]

theorem kept_surrounded : (f.surrounded before after).kept = f.kept := by
  rw [kept, kept, isEmpty_surrounded, bindings_surrounded]

end Fragment
end BoundSql
