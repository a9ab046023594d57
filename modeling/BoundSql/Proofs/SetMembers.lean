import BoundSql.Proofs.Joined
import BoundSql.Value.Basic

/-!
# Members of sets

A driver receives the members of a `SET` column as one text, with commas between them, and splits
such a text at its commas when it comes back. Every text is the text of the members it is split
into. Members are split apart again unless one of them has a comma in it, or there is only the
empty one, whose text is that of no members at all. A list among the members stands for its own
members.
-/
namespace BoundSql

/-! ## Joined texts -/

section
variable {separator : String} (before : List String) {inner : List String} (after : List String)

/-- A join that is a part of another one may be taken apart, if it has any parts. -/
theorem intercalate_nested (h : inner ≠ []) :
    String.intercalate separator (before ++ String.intercalate separator inner :: after) =
      String.intercalate separator (before ++ inner ++ after) := by
  have hfirst : String.intercalate separator (String.intercalate separator inner :: after) =
      String.intercalate separator (inner ++ after) := by
    cases after with
    | nil => rw [String.intercalate_singleton, List.append_nil]
    | cons t rest =>
      rw [String.intercalate_cons_of_ne_nil (by simp),
        String.intercalate_append_of_ne_nil h (by simp)]
  cases before with
  | nil => exact hfirst
  | cons t rest =>
    have hne : inner ++ after ≠ [] := List.append_ne_nil_of_left_ne_nil h after
    rw [String.intercalate_append_of_ne_nil (by simp) (by simp), hfirst, List.append_assoc,
      String.intercalate_append_of_ne_nil (List.cons_ne_nil t rest) hne]

/-- An empty text among others adds a separator. -/
theorem length_intercalate_empty (h : before ++ after ≠ []) :
    (String.intercalate separator (before ++ "" :: after)).length =
      (String.intercalate separator (before ++ after)).length + separator.length := by
  have hfirst : after ≠ [] →
      (String.intercalate separator ("" :: after)).length =
        (String.intercalate separator after).length + separator.length := by
    intro hafter
    rw [String.intercalate_cons_of_ne_nil hafter, String.empty_append, String.length_append]
    omega
  cases before with
  | nil => exact hfirst h
  | cons t rest =>
    cases after with
    | nil =>
      rw [String.intercalate_append_of_ne_nil (by simp) (by simp), List.append_nil,
        String.intercalate_singleton, String.append_empty, String.length_append]
    | cons u more =>
      have hlength := hfirst (List.cons_ne_nil u more)
      rw [String.intercalate_append_of_ne_nil (by simp) (by simp),
        String.intercalate_append_of_ne_nil (by simp) (by simp)]
      simp only [String.length_append, hlength]
      omega

end

namespace Value

open ofSet

/-! ## Splitting -/

theorem splitCommas_comma (cs : List Char) : splitCommas (',' :: cs) = [] :: splitCommas cs := rfl

theorem splitCommas_ne_nil (cs : List Char) : splitCommas cs ≠ [] := by
  cases cs with
  | nil => exact List.cons_ne_nil _ _
  | cons c cs =>
    rw [splitCommas]
    split
    · exact List.cons_ne_nil _ _
    · split <;> exact List.cons_ne_nil _ _

/-- A character that is no comma belongs to the first piece. -/
theorem splitCommas_char {c : Char} (hc : c ≠ ',') (cs : List Char) :
    ∃ piece pieces, splitCommas cs = piece :: pieces ∧
      splitCommas (c :: cs) = (c :: piece) :: pieces := by
  obtain ⟨piece, pieces, hpieces⟩ := List.exists_cons_of_ne_nil (splitCommas_ne_nil cs)
  exact ⟨piece, pieces, hpieces, by rw [splitCommas, if_neg hc, hpieces]⟩

/-- Joining the pieces gives the text back. -/
theorem intercalate_splitCommas (cs : List Char) :
    List.intercalate [','] (splitCommas cs) = cs := by
  induction cs with
  | nil => rfl
  | cons c cs ih =>
    by_cases hc : c = ','
    · subst hc
      rw [splitCommas_comma, List.intercalate_cons_of_ne_nil (splitCommas_ne_nil cs), ih]
      rfl
    · obtain ⟨piece, pieces, hpieces, hsplit⟩ := splitCommas_char hc cs
      rw [hpieces] at ih
      rw [hsplit, ← ih]
      cases pieces with
      | nil => simp
      | cons next more => simp [List.intercalate_cons_cons]

theorem notMem_of_mem_splitCommas {cs piece : List Char} (h : piece ∈ splitCommas cs) :
    ',' ∉ piece := by
  induction cs generalizing piece with
  | nil =>
    obtain rfl := List.mem_singleton.1 h
    exact List.not_mem_nil
  | cons c cs ih =>
    by_cases hc : c = ','
    · subst hc
      rw [splitCommas_comma] at h
      rcases List.mem_cons.1 h with rfl | h
      · exact List.not_mem_nil
      · exact ih h
    · obtain ⟨first, pieces, hpieces, hsplit⟩ := splitCommas_char hc cs
      rw [hsplit] at h
      rcases List.mem_cons.1 h with rfl | h
      · have hfirst := ih (hpieces ▸ List.mem_cons_self ..)
        exact List.not_mem_cons_of_ne_of_not_mem (Ne.symm hc) hfirst
      · exact ih (hpieces ▸ List.mem_cons_of_mem _ h)

theorem splitCommas_of_notMem {piece : List Char} (h : ',' ∉ piece) :
    splitCommas piece = [piece] := by
  induction piece with
  | nil => rfl
  | cons c cs ih =>
    rw [List.mem_cons, not_or] at h
    rw [splitCommas, if_neg (Ne.symm h.1), ih h.2]

theorem splitCommas_append {piece : List Char} (h : ',' ∉ piece) (cs : List Char) :
    splitCommas (piece ++ ',' :: cs) = piece :: splitCommas cs := by
  induction piece with
  | nil => rfl
  | cons c piece ih =>
    rw [List.mem_cons, not_or] at h
    rw [List.cons_append, splitCommas, if_neg (Ne.symm h.1), ih h.2]

/-- Pieces without commas are the ones that their join is split into. -/
theorem splitCommas_intercalate {pieces : List (List Char)} (hne : pieces ≠ [])
    (h : ∀ piece ∈ pieces, ',' ∉ piece) :
    splitCommas (List.intercalate [','] pieces) = pieces := by
  induction pieces with
  | nil => exact absurd rfl hne
  | cons piece rest ih =>
    have hpiece := h piece (List.mem_cons_self ..)
    cases rest with
    | nil => rw [List.intercalate_singleton, splitCommas_of_notMem hpiece]
    | cons next more =>
      have hrest := ih (List.cons_ne_nil _ _) fun p hp => h p (List.mem_cons_of_mem _ hp)
      rw [List.intercalate_cons_cons, List.append_assoc, List.singleton_append,
        splitCommas_append hpiece, hrest]

/-! ## Texts of lists -/

theorem memberText_list (members : List Value) :
    memberText (.list members) = String.intercalate "," (members.map memberText) := by
  rw [memberText, memberTexts_eq_map]

theorem binding_list (members : List Value) :
    (list members).binding = .string (String.intercalate "," (members.map memberText)) := by
  rw [binding, memberTexts_eq_map]

theorem map_memberText_string (members : List String) :
    (members.map string).map memberText = members := by
  rw [List.map_map]
  exact List.map_id'' (fun _ => by rw [Function.comp_apply, memberText]) members

theorem ofSet_of_ne_empty {text : String} (h : text ≠ "") :
    ofSet text = .list (((splitCommas text.toList).map String.ofList).map string) := by
  rw [ofSet, if_neg h, List.map_map]
  rfl

/-- The members of a text have that text. -/
theorem binding_ofSet (text : String) : (ofSet text).binding = .string text := by
  by_cases h : text = ""
  · subst h
    rfl
  · have hchars : ((splitCommas text.toList).map String.ofList).map String.toList =
        splitCommas text.toList := by
      rw [List.map_map]
      exact List.map_id'' (fun _ => String.toList_ofList) _
    rw [ofSet_of_ne_empty h, binding_list, map_memberText_string, Value.string.injEq,
      ← String.toList_inj, String.toList_intercalate, hchars]
    exact intercalate_splitCommas text.toList

theorem intercalate_eq_empty_iff (members : List String) :
    String.intercalate "," members = "" ↔ members = [] ∨ members = [""] := by
  cases members with
  | nil => simp
  | cons m rest =>
    cases rest with
    | nil => simp
    | cons next more =>
      rw [String.intercalate_cons_of_ne_nil (List.cons_ne_nil next more)]
      simp [String.append_eq_empty_iff]

/-- Members are the ones that their text is split into exactly if none has a comma in it, and they
are not the empty one alone. -/
theorem ofSet_intercalate_iff (members : List String) :
    ofSet (String.intercalate "," members) = .list (members.map string) ↔
      (∀ m ∈ members, ',' ∉ m.toList) ∧ members ≠ [""] := by
  by_cases htext : String.intercalate "," members = ""
  · rcases (intercalate_eq_empty_iff members).1 htext with rfl | rfl
    · exact iff_of_true rfl ⟨List.forall_mem_nil _, (List.cons_ne_nil _ _).symm⟩
    · exact iff_of_false (by simp [ofSet]) fun h => h.2 rfl
  · have hmembers := mt (intercalate_eq_empty_iff members).2 htext
    rw [not_or] at hmembers
    have hstring : Function.Injective string := fun _ _ => Value.string.inj
    rw [ofSet_of_ne_empty htext, Value.list.injEq, List.map_inj_right fun _ _ h => hstring h,
      String.toList_intercalate]
    constructor
    · intro h
      refine ⟨fun m hm => ?_, hmembers.2⟩
      rw [← h] at hm
      obtain ⟨piece, hpiece, rfl⟩ := List.mem_map.1 hm
      rw [String.toList_ofList]
      exact notMem_of_mem_splitCommas hpiece
    · rintro ⟨hcommas, -⟩
      have hpieces : ∀ piece ∈ members.map String.toList, ',' ∉ piece :=
        List.forall_mem_map.2 hcommas
      have hsplit := splitCommas_intercalate (mt List.map_eq_nil_iff.1 hmembers.1) hpieces
      have hcomma : ",".toList = [','] := rfl
      rw [hcomma, hsplit, List.map_map]
      exact List.map_id'' (fun _ => String.ofList_toList) members

/-! ## Lists among members -/

/-- A place inside nested lists: the members on both sides of it, from the outermost list to the
innermost. -/
abbrev Place := List (List Value × List Value)

/-- The members of the outermost list, with these members at the place. -/
def Place.fill : Place → List Value → List Value
  | [], members => members
  | (before, after) :: place, members => before ++ .list (fill place members) :: after

/-- The text of a list holds the text of each place in it. -/
theorem Place.exists_text (place : Place) :
    ∃ front back, ∀ members,
      memberText (.list (place.fill members)) = front ++ memberText (.list members) ++ back := by
  induction place with
  | nil => exact ⟨"", "", fun members => by rw [fill, String.empty_append, String.append_empty]⟩
  | cons sides place ih =>
    obtain ⟨before, after⟩ := sides
    obtain ⟨front, back, hinner⟩ := ih
    obtain ⟨left, right, houter⟩ :=
      exists_intercalate "," (before.map memberText) (after.map memberText)
    refine ⟨left ++ front, back ++ right, fun members => ?_⟩
    rw [fill, memberText_list, List.map_append, List.map_cons, houter, hinner]
    simp only [String.append_assoc]

/-- A list at a place may give way to its own members exactly if it has any, or no neighbours. -/
theorem Place.binding_fill_iff (place : Place) (before after members : List Value) :
    (list (place.fill (before ++ .list members :: after))).binding =
        (list (place.fill (before ++ members ++ after))).binding ↔
      members ≠ [] ∨ before = [] ∧ after = [] := by
  obtain ⟨front, back, htext⟩ := place.exists_text
  have hbinding : ∀ inner, (list (place.fill inner)).binding =
      .string (front ++ String.intercalate "," (inner.map memberText) ++ back) := by
    intro inner
    rw [← memberText_list, ← htext, memberText_list, binding_list]
  rw [hbinding, hbinding, Value.string.injEq, String.append_left_inj, String.append_right_inj]
  simp only [List.map_append, List.map_cons, memberText_list]
  by_cases hmembers : members = []
  · subst hmembers
    simp only [ne_eq, not_true_eq_false, false_or, List.map_nil, String.intercalate_nil,
      List.append_nil]
    by_cases hsides : before = [] ∧ after = []
    · obtain ⟨rfl, rfl⟩ := hsides
      exact iff_of_true rfl ⟨rfl, rfl⟩
    · -- With a neighbour there is a comma to lose.
      have hne : before.map memberText ++ after.map memberText ≠ [] := by
        simpa [List.append_eq_nil_iff] using hsides
      refine iff_of_false (fun h => ?_) hsides
      have hlength : (String.intercalate "," (before.map memberText ++ "" ::
          after.map memberText)).length = _ := length_intercalate_empty _ _ hne
      rw [h] at hlength
      exact absurd hlength (by simp)
  · have hinner : members.map memberText ≠ [] := mt List.map_eq_nil_iff.1 hmembers
    exact iff_of_true (intercalate_nested _ _ hinner) (.inl hmembers)

/-- Every text is the text of its members, and members come back from their text exactly if none of
them has a comma in it and they are not the empty text alone. At any depth, a list among the members
can be replaced by its own members exactly if it has any, or stands alone in its list. -/
theorem ofSet_binding :
    (∀ text, (ofSet text).binding = .string text) ∧
      (∀ members : List String, ∃ text, (list (members.map string)).binding = .string text ∧
        (ofSet text = .list (members.map string) ↔
          (∀ m ∈ members, ',' ∉ m.toList) ∧ members ≠ [""])) ∧
      ∀ (place : Place) (before after members : List Value),
        (list (place.fill (before ++ .list members :: after))).binding =
            (list (place.fill (before ++ members ++ after))).binding ↔
          members ≠ [] ∨ before = [] ∧ after = [] := by
  refine ⟨binding_ofSet, fun members => ?_, Place.binding_fill_iff⟩
  refine ⟨String.intercalate "," members, ?_, ofSet_intercalate_iff members⟩
  rw [binding_list, map_memberText_string]

/-- Empty members at both ends, and lists inside of lists. -/
theorem ofSet_binding_flags :
    (ofSet ",a,,").binding = .string ",a,," ∧
      ofSet ",a,," = .list [.string "", .string "a", .string "", .string ""] ∧
      (list [.string "a", .list [.int 1, .list [.null, .bool true], .string ""]]).binding =
        (list [.string "a", .list [.int 1, .null, .bool true, .string ""]]).binding ∧
      (list [.string "a", .list [.int 1, .list [], .string ""]]).binding ≠
        (list [.string "a", .list [.int 1, .string ""]]).binding := by
  obtain ⟨htext, hmembers, hplace⟩ := ofSet_binding
  obtain ⟨text, hbinding, hsplit⟩ := hmembers ["", "a", "", ""]
  obtain rfl : ",a,," = text := Value.string.inj hbinding
  let place : Place := [([.string "a"], [])]
  refine ⟨htext ",a,,", hsplit.2 ⟨by decide, by decide⟩,
    (hplace place [.int 1] [.string ""] [.null, .bool true]).2 (.inl (List.cons_ne_nil _ _)),
    fun h => ?_⟩
  have hsides := (hplace place [.int 1] [.string ""] []).1 h
  exact absurd hsides (by simp)

end Value
end BoundSql
