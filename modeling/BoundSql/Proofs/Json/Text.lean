import BoundSql.Proofs.Json.Grammar

/-!
# Printed JSON

The compact text and the indented text are texts of the value, so both are read back as it. They
say all of it unless a double stands in it or something that could not be read.
-/
namespace BoundSql.Json

open Reader

mutual

/-- How many arrays and objects stand in each other. -/
def depth : Json → Nat
  | .array items => itemDepth items + 1
  | .object members => memberDepth members + 1
  | _ => 0

def itemDepth : List Json → Nat
  | [] => 0
  | j :: rest => max j.depth (itemDepth rest)

def memberDepth : List (String × Json) → Nat
  | [] => 0
  | (_, j) :: rest => max j.depth (memberDepth rest)

end

mutual

/-- The value has a text that says all of it: no double stands in it, nor anything that could not
be read. -/
def isExact : Json → Bool
  | .float _ => false
  | .array items => itemsExact items
  | .object members => membersExact members
  | .unreadable => false
  | _ => true

def itemsExact : List Json → Bool
  | [] => true
  | j :: rest => j.isExact && itemsExact rest

def membersExact : List (String × Json) → Bool
  | [] => true
  | (_, j) :: rest => j.isExact && membersExact rest

end

/-! ## Scalars and names -/

theorem isText_stringChars (n : Nat) (s : String) : IsText n (.string s) (stringChars s) := by
  obtain ⟨cs, t, hchars, hspells, htext⟩ := exists_spells s
  have h := IsText.string (n := n) hspells
  rw [htext] at h
  rw [hchars]
  exact h

theorem areBlank_nil : AreBlank [] := by simp [AreBlank]

theorem areBlank_space : AreBlank [' '] := by simp [AreBlank]

theorem areBlank_newLine (depth : Nat) : AreBlank (newLine depth) := by
  intro c hc
  rcases List.mem_cons.1 hc with rfl | hc
  · exact .inr (.inr (.inl rfl))
  · exact .inl (List.eq_of_mem_replicate hc)

/-- A text without white space around it. -/
theorem IsText.spaced {n : Nat} {j : Json} {cs : List Char} (h : IsText n j cs) :
    IsSpaced n j cs := by
  have hspaced := IsSpaced.intro areBlank_nil h areBlank_nil
  rwa [List.nil_append, List.append_nil] at hspaced

/-- A name in front of a value. -/
theorem isMember_stringChars {n : Nat} (name : String) {j : Json} {before cs : List Char}
    (hbefore : AreBlank before) (h : IsSpaced n j cs) :
    IsMember n (some name, j) (before ++ stringChars name ++ ':' :: cs) := by
  obtain ⟨spelt, t, hchars, hspells, htext⟩ := exists_spells name
  have hmember := IsMember.intro hbefore hspells areBlank_nil h
  rw [htext] at hmember
  rw [hchars, List.append_assoc]
  exact hmember

theorem mapM_map_eq {α β γ : Type} (encode : α → β) {decode : β → Option γ} (g : α → γ)
    {as : List α} (h : ∀ a ∈ as, decode (encode a) = some (g a)) :
    (as.map encode).mapM decode = some (as.map g) := by
  induction as with
  | nil => rfl
  | cons a as ih =>
    rw [List.map_cons, List.mapM_cons, h a (List.mem_cons_self ..),
      ih fun b hb => h b (List.mem_cons_of_mem a hb)]
    rfl

/-- A member whose name can be read. -/
def named (m : String × Json) : Option String × Json := (some m.1, m.2)

theorem ofMembers_named (members : List (String × Json)) :
    ofMembers (members.map named) = .object members := by
  rw [ofMembers, mapM_map_eq named id, List.map_id]
  intro m _
  rfl

/-! ## The compact text -/

theorem memberChars_cons (name : String) (j : Json) (m : String × Json)
    (rest : List (String × Json)) :
    memberChars ((name, j) :: m :: rest) =
      stringChars name ++ ':' :: (j.chars ++ ',' :: memberChars (m :: rest)) := by
  rw [memberChars]
  simp

mutual

theorem isText_chars : (j : Json) → j.isExact = true → {n : Nat} → j.depth ≤ n →
    IsText n j j.chars
  | .null, _, _, _ => .null
  | .bool true, _, _, _ => .true
  | .bool false, _, _, _ => .false
  | .whole n, _, _, _ => .number (numberLiteral?_wholeChars n)
  | .string s, _, n, _ => isText_stringChars n s
  | .array items, h, n, hdepth => by
    rw [depth] at hdepth
    obtain ⟨n, rfl⟩ := Nat.exists_eq_add_of_le' (Nat.le_of_add_left_le hdepth)
    have hitems := areItems_chars items h (n := n) (by omega)
    cases items with
    | nil => exact .noItems areBlank_nil
    | cons j rest => exact .array (hitems (by simp))
  | .object members, h, n, hdepth => by
    rw [depth] at hdepth
    obtain ⟨n, rfl⟩ := Nat.exists_eq_add_of_le' (Nat.le_of_add_left_le hdepth)
    have hmembers := areMembers_chars members h (n := n) (by omega)
    cases members with
    | nil => exact .noMembers areBlank_nil
    | cons m rest =>
      have hobject := IsText.object (hmembers (by simp))
      rwa [ofMembers_named] at hobject

theorem areItems_chars : (items : List Json) → itemsExact items = true → {n : Nat} →
    itemDepth items ≤ n → items ≠ [] → AreItems n items (itemChars items)
  | [], _, _, _, hne => absurd rfl hne
  | j :: rest, h, n, hdepth, _ => by
    rw [itemsExact, Bool.and_eq_true] at h
    rw [itemDepth] at hdepth
    have hj := (isText_chars j h.1 (n := n) (by omega)).spaced
    have hrest := areItems_chars rest h.2 (n := n) (by omega)
    cases rest with
    | nil => exact .single hj
    | cons k rest => exact .cons hj (hrest (by simp))

theorem areMembers_chars : (members : List (String × Json)) → membersExact members = true →
    {n : Nat} → memberDepth members ≤ n → members ≠ [] →
    AreMembers n (members.map named) (memberChars members)
  | [], _, _, _, hne => absurd rfl hne
  | (name, j) :: rest, h, n, hdepth, _ => by
    rw [membersExact, Bool.and_eq_true] at h
    rw [memberDepth] at hdepth
    have hj := (isText_chars j h.1 (n := n) (by omega)).spaced
    have hm := isMember_stringChars name areBlank_nil hj
    have hrest := areMembers_chars rest h.2 (n := n) (by omega)
    cases rest with
    | nil => exact .single hm
    | cons m rest =>
      have hmore := AreMembers.cons hm (hrest (by simp))
      rw [memberChars_cons]
      simpa [named] using hmore

end

/-! ## The indented text -/

mutual

theorem isText_prettyChars : (j : Json) → j.isExact = true → {n : Nat} → j.depth ≤ n →
    (level : Nat) → IsText n j (j.prettyChars level)
  | .null, _, _, _, _ => .null
  | .bool true, _, _, _, _ => .true
  | .bool false, _, _, _, _ => .false
  | .whole n, _, _, _, _ => .number (numberLiteral?_wholeChars n)
  | .string s, _, n, _, _ => isText_stringChars n s
  | .array items, h, n, hdepth, level => by
    rw [depth] at hdepth
    obtain ⟨n, rfl⟩ := Nat.exists_eq_add_of_le' (Nat.le_of_add_left_le hdepth)
    have hitems := areItems_prettyChars items h (n := n) (by omega) (level + 1)
      (areBlank_newLine level)
    cases items with
    | nil => exact .noItems areBlank_nil
    | cons j rest =>
      rw [prettyChars]
      · exact .array (hitems (by simp))
      · simp
  | .object members, h, n, hdepth, level => by
    rw [depth] at hdepth
    obtain ⟨n, rfl⟩ := Nat.exists_eq_add_of_le' (Nat.le_of_add_left_le hdepth)
    have hmembers := areMembers_prettyChars members h (n := n) (by omega) (level + 1)
      (areBlank_newLine level)
    cases members with
    | nil => exact .noMembers areBlank_nil
    | cons m rest =>
      have hobject := IsText.object (hmembers (by simp))
      rw [ofMembers_named] at hobject
      rw [prettyChars]
      · exact hobject
      · simp

/-- The items and the new line behind them. -/
theorem areItems_prettyChars : (items : List Json) → itemsExact items = true → {n : Nat} →
    itemDepth items ≤ n → (level : Nat) → {after : List Char} → AreBlank after → items ≠ [] →
    AreItems n items (prettyItems level items ++ after)
  | [], _, _, _, _, _, _, hne => absurd rfl hne
  | j :: rest, h, n, hdepth, level, after, hafter, _ => by
    rw [itemsExact, Bool.and_eq_true] at h
    rw [itemDepth] at hdepth
    have hj := isText_prettyChars j h.1 (n := n) (by omega) level
    have hrest := areItems_prettyChars rest h.2 (n := n) (by omega) level hafter
    cases rest with
    | nil =>
      have hlast := IsSpaced.intro (areBlank_newLine level) hj hafter
      rw [← List.append_assoc] at hlast
      exact .single hlast
    | cons k rest =>
      have hspaced := IsSpaced.intro (areBlank_newLine level) hj areBlank_nil
      have hmore := AreItems.cons hspaced (hrest (by simp))
      rw [prettyItems]
      · simpa using hmore
      · simp

/-- The members and the new line behind them. -/
theorem areMembers_prettyChars : (members : List (String × Json)) →
    membersExact members = true → {n : Nat} → memberDepth members ≤ n → (level : Nat) →
    {after : List Char} → AreBlank after → members ≠ [] →
    AreMembers n (members.map named) (prettyMembers level members ++ after)
  | [], _, _, _, _, _, _, hne => absurd rfl hne
  | (name, j) :: rest, h, n, hdepth, level, after, hafter, _ => by
    rw [membersExact, Bool.and_eq_true] at h
    rw [memberDepth] at hdepth
    have hj := isText_prettyChars j h.1 (n := n) (by omega) level
    have hrest := areMembers_prettyChars rest h.2 (n := n) (by omega) level hafter
    cases rest with
    | nil =>
      have hlast := isMember_stringChars name (areBlank_newLine level)
        (IsSpaced.intro areBlank_space hj hafter)
      refine .single ?_
      simpa [prettyMembers, named] using hlast
    | cons m rest =>
      have hspaced := isMember_stringChars name (areBlank_newLine level)
        (IsSpaced.intro areBlank_space hj areBlank_nil)
      have hmore := AreMembers.cons hspaced (hrest (by simp))
      rw [prettyMembers]
      · simpa [named] using hmore
      · simp

end

/-! ## Reading back -/

theorem isDocument_compact {j : Json} (hexact : j.isExact = true) (hdepth : j.depth ≤ depthLimit) :
    IsDocument j.compact j := by
  rw [IsDocument, compact, String.toList_ofList]
  exact (isText_chars j hexact hdepth).spaced

theorem isDocument_pretty {j : Json} (hexact : j.isExact = true) (hdepth : j.depth ≤ depthLimit) :
    IsDocument j.pretty j := by
  rw [IsDocument, pretty, String.toList_ofList]
  exact (isText_prettyChars j hexact hdepth 0).spaced

/-- A value of bounded depth is read back from its compact text. -/
theorem parse?_compact {j : Json} (hexact : j.isExact = true) (hdepth : j.depth ≤ depthLimit) :
    parse? j.compact = some j := parse?_of_isDocument (isDocument_compact hexact hdepth)

/-- And from its indented text. -/
theorem parse?_pretty {j : Json} (hexact : j.isExact = true) (hdepth : j.depth ≤ depthLimit) :
    parse? j.pretty = some j := parse?_of_isDocument (isDocument_pretty hexact hdepth)

end BoundSql.Json
