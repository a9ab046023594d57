import BoundSql.Proofs.Joined
import BoundSql.Proofs.Placeholders
import Mathlib.Data.List.Induction

/-!
# Assembled fragments

The join of two lists of parts is the join of their joins: the separator stands between two texts
and nowhere else, whichever parts without text there are. So a join can be built part by part, and
a fragment that is put together from balanced ones is balanced.
-/
namespace BoundSql
namespace Fragment

variable (separator : String)

/-! ## Parts without text -/

/-- A list of parts, and the same list with parts without text put in anywhere. -/
inductive Padded : List Fragment → List Fragment → Prop
  | nil : Padded [] []
  | part (f : Fragment) {parts padded : List Fragment} (rest : Padded parts padded) :
      Padded (f :: parts) (f :: padded)
  | blank {f : Fragment} (h : f.isEmpty = true) {parts padded : List Fragment}
      (rest : Padded parts padded) : Padded parts (f :: padded)

/-- Only the parts with text count. -/
theorem joined_congr {parts parts' : List Fragment}
    (h : parts.filter (fun f => !f.isEmpty) = parts'.filter fun f => !f.isEmpty) :
    joined separator parts = joined separator parts' := by
  rw [joined, joined, h]

theorem Padded.joined_eq {parts padded : List Fragment} (h : Padded parts padded) :
    joined separator padded = joined separator parts := by
  refine joined_congr separator ?_
  induction h with
  | nil => rfl
  | part f _ ih => rw [List.filter_cons, List.filter_cons, ih]
  | blank hf _ ih => rw [List.filter_cons_of_neg (by simp [hf]), ih]

theorem joined_singleton {f : Fragment} (h : f.isEmpty = false) : joined separator [f] = f := by
  rw [joined_cons separator f [] h, List.all_nil, if_pos rfl]

/-- No value is bound beside an empty text, so without text a join is nothing at all. -/
theorem joined_eq_empty {parts : List Fragment} (h : (joined separator parts).isEmpty = true) :
    joined separator parts = empty := by
  refine ext (isEmpty_iff.1 h) ?_
  rw [← kept_joined, kept_of_isEmpty h, bindings_empty]

theorem joined_singleton_joined (parts : List Fragment) :
    joined separator [joined separator parts] = joined separator parts := by
  cases h : (joined separator parts).isEmpty with
  | false => exact joined_singleton separator h
  | true => rw [joined_eq_empty separator h, joined_cons_of_isEmpty separator [] rfl, joined_nil]

/-! ## Joins of joins -/

theorem filter_eq_nil_iff {parts : List Fragment} :
    (parts.filter fun f => !f.isEmpty) = [] ↔ (joined separator parts).isEmpty = true := by
  simp [isEmpty_joined, List.filter_eq_nil_iff]

/-- The separator stands between two lists that both have text. -/
theorem joined_append_of_not_isEmpty {xs ys : List Fragment}
    (hxs : (joined separator xs).isEmpty = false) (hys : (joined separator ys).isEmpty = false) :
    joined separator (xs ++ ys) =
      joined separator xs ++ ofText separator ++ joined separator ys := by
  have hshown : ∀ parts, (joined separator parts).isEmpty = false →
      (parts.filter fun f => !f.isEmpty).map text ≠ [] := by
    intro parts h hnil
    rw [List.map_eq_nil_iff, filter_eq_nil_iff separator, h] at hnil
    exact Bool.false_ne_true hnil
  ext1
  · simp only [joined, List.filter_append, List.map_append, text_append, text_ofText]
    exact String.intercalate_append_of_ne_nil (hshown xs hxs) (hshown ys hys)
  · simp [joined, List.filter_append]

/-- A list without text adds nothing to a join, on either side of it. -/
theorem joined_append_of_isEmpty {xs ys : List Fragment}
    (h : (joined separator ys).isEmpty = true) :
    joined separator (xs ++ ys) = joined separator xs ∧
      joined separator (ys ++ xs) = joined separator xs := by
  rw [← filter_eq_nil_iff] at h
  constructor
  · exact joined_congr separator (by rw [List.filter_append, h, List.append_nil])
  · exact joined_congr separator (by rw [List.filter_append, h, List.nil_append])

theorem joined_append (xs ys : List Fragment) :
    joined separator (xs ++ ys) =
      joined separator [joined separator xs, joined separator ys] := by
  cases hxs : (joined separator xs).isEmpty with
  | true =>
    rw [joined_cons_of_isEmpty separator _ hxs, joined_singleton_joined]
    exact (joined_append_of_isEmpty separator hxs).2
  | false =>
    rw [joined_cons separator _ _ hxs, joined_singleton_joined, List.all_cons, List.all_nil,
      Bool.and_true]
    -- A separator stands between the two joins exactly if the second has text too.
    cases hys : (joined separator ys).isEmpty with
    | true =>
      rw [if_pos rfl]
      exact (joined_append_of_isEmpty separator hys).1
    | false =>
      rw [if_neg Bool.false_ne_true]
      exact joined_append_of_not_isEmpty separator hxs hys

/-! ## Part by part -/

/-- What is joined so far, with one more part behind it. -/
def extended (front part : Fragment) : Fragment :=
  if part.isEmpty then front
  else (if front.isEmpty then front else front.push separator) ++ part

theorem joined_concat (parts : List Fragment) (f : Fragment) :
    joined separator (parts ++ [f]) = extended separator (joined separator parts) f := by
  unfold extended
  cases hf : f.isEmpty with
  | true =>
    have hblank : (joined separator [f]).isEmpty = true := by
      rw [joined_cons_of_isEmpty separator [] hf, joined_nil]
      rfl
    rw [(joined_append_of_isEmpty separator hblank).1, if_pos rfl]
  | false =>
    have hsingle : joined separator [f] = f := joined_singleton separator hf
    rw [if_neg Bool.false_ne_true]
    cases h : (joined separator parts).isEmpty with
    | true =>
      rw [(joined_append_of_isEmpty separator h).2, hsingle, joined_eq_empty separator h,
        if_pos rfl, empty_append]
    | false =>
      rw [joined_append_of_not_isEmpty separator h (by rw [hsingle, hf]), hsingle,
        if_neg Bool.false_ne_true]
      rfl

/-- Extending nothing by one part after the other gives the join. -/
theorem foldl_extended (parts : List Fragment) :
    parts.foldl (extended separator) empty = joined separator parts := by
  induction parts using List.reverseRecOn with
  | nil => rw [List.foldl_nil, joined_nil]
  | append_singleton parts f ih =>
    rw [List.foldl_append, ih, joined_concat, List.foldl_cons, List.foldl_nil]

/-! ## Balanced fragments -/

/-- A fragment that is put together from balanced ones. The separator of a join has no placeholder
and leaves no quotation mark open; the parts without text may be anything. -/
inductive Assembled : Fragment → Prop
  | part {f : Fragment} (balanced : f.IsBalanced) : Assembled f
  | append {f g : Fragment} (left : Assembled f) (right : Assembled g) : Assembled (f ++ g)
  | pushBound {f : Fragment} {placeholder : String} {v : Value} (front : Assembled f)
      (balanced : (bound placeholder [v]).IsBalanced) : Assembled (f.pushBound placeholder v)
  | joined {separator : String} {parts : List Fragment}
      (balanced : (ofText separator).IsBalanced)
      (shown : ∀ f ∈ parts, f.isEmpty = false → Assembled f) : Assembled (joined separator parts)

variable {separator}

theorem IsBalanced.extended {front part : Fragment} (hfront : front.IsBalanced)
    (hseparator : (ofText separator).IsBalanced) (hpart : part.isEmpty = false → part.IsBalanced) :
    (extended separator front part).IsBalanced := by
  unfold Fragment.extended
  cases h : part.isEmpty with
  | true => exact hfront
  | false =>
    refine IsBalanced.append ?_ (hpart h)
    split
    · exact hfront
    · exact hfront.append hseparator

theorem isBalanced_joined {parts : List Fragment} (hseparator : (ofText separator).IsBalanced)
    (h : ∀ f ∈ parts, f.isEmpty = false → f.IsBalanced) : (joined separator parts).IsBalanced := by
  induction parts using List.reverseRecOn with
  | nil =>
    rw [joined_nil]
    exact isBalanced_empty
  | append_singleton parts f ih =>
    have hparts := ih fun g hg => h g (List.mem_append_left _ hg)
    rw [joined_concat]
    exact hparts.extended hseparator (h f (List.mem_append_right _ (List.mem_singleton_self f)))

theorem Assembled.isBalanced {f : Fragment} (h : Assembled f) : f.IsBalanced := by
  induction h with
  | part balanced => exact balanced
  | append _ _ hleft hright => exact hleft.append hright
  | pushBound _ balanced hfront => exact hfront.append balanced
  | joined balanced _ hshown => exact isBalanced_joined balanced hshown

/-- Joining takes concatenation to joining. Parts without text can be put in or left out anywhere,
with whatever values; the others are joined one after the other, their texts with the separator in
between and their values side by side. What is put together from fragments with a binding for each
placeholder and every quotation mark closed is again such a fragment. -/
theorem joined_homomorphism (separator : String) :
    (∀ xs ys, joined separator (xs ++ ys) =
        joined separator [joined separator xs, joined separator ys]) ∧
      (∀ parts padded, Padded parts padded →
        joined separator padded = joined separator parts) ∧
      (∀ parts, joined separator parts = parts.foldl (extended separator) empty ∧
        (joined separator parts).text =
          String.intercalate separator ((parts.map text).filter (· ≠ "")) ∧
        (joined separator parts).bindings =
          (parts.filter fun f => f.text ≠ "").flatMap bindings) ∧
      ∀ f, Assembled f → f.IsBalanced := by
  refine ⟨joined_append separator, fun _ _ h => h.joined_eq separator, fun parts => ?_,
    fun _ h => h.isBalanced⟩
  have hshown : (fun f : Fragment => !f.isEmpty) = fun f => decide (f.text ≠ "") := by
    funext f
    rw [isEmpty, Bool.eq_iff_iff]
    simp
  refine ⟨(foldl_extended separator parts).symm, ?_, ?_⟩
  · rw [joined, hshown, List.filter_map]
    rfl
  · rw [joined, hshown]

/-- A value beside an empty text is left out with it, and question marks in names do not count. -/
theorem joined_homomorphism_conditions :
    let first := bound "\x60a?\x60 = ?" [.int 1]
    let last := (ofText "\x60b\x60 = ").pushBound "?" (.list [.int 2, .int 3])
    let blank := bound "" [.int 4]
    let conditions := joined " AND " [blank, first, blank, last, blank]
    conditions =
        joined " AND " [joined " AND " [blank, first], joined " AND " [blank, last, blank]] ∧
      Padded [first, last] [blank, first, blank, last, blank] ∧
      conditions = joined " AND " [first, last] ∧
      conditions.text = "\x60a?\x60 = ? AND \x60b\x60 = ?" ∧
      conditions.bindings = [.int 1, .string "2,3"] ∧
      Assembled conditions ∧ conditions.IsBalanced := by
  intro first last blank conditions
  obtain ⟨happend, hjoined, hparts, hbalanced⟩ := joined_homomorphism " AND "
  have hpadded : Padded [first, last] [blank, first, blank, last, blank] :=
    .blank rfl (.part _ (.blank rfl (.part _ (.blank rfl .nil))))
  have hassembled : Assembled conditions := by
    have hfirst : Assembled first := .part ⟨by decide, by decide⟩
    have hlast : Assembled last :=
      .pushBound (.part ⟨by decide, by decide⟩) ⟨by decide, by decide⟩
    have hblank : blank.isEmpty = false → Assembled blank := fun h => absurd h (by decide)
    refine .joined ⟨by decide, by decide⟩ fun f hf hshown => ?_
    simp only [List.mem_cons, List.not_mem_nil, or_false] at hf
    obtain rfl | rfl | rfl | rfl | rfl := hf
    · exact hblank hshown
    · exact hfirst
    · exact hblank hshown
    · exact hlast
    · exact hblank hshown
  obtain ⟨-, htext, hbindings⟩ := hparts [blank, first, blank, last, blank]
  exact ⟨happend [blank, first] [blank, last, blank], hpadded, hjoined _ _ hpadded,
    htext.trans (by decide), hbindings.trans rfl, hassembled, hbalanced _ hassembled⟩

end Fragment
end BoundSql
