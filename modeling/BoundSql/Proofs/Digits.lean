import BoundSql.Number.Digits

/-!
# Numbers in texts

The digits of a number are nothing but digits and stand for the number, also behind zeros. Only
zero begins with a zero. A reader takes all of them as long as it meets something else behind
them.
-/
namespace BoundSql.Number

theorem isDigit_digits (n : Nat) : ∀ c ∈ digits n, c.isDigit = true := fun _ hc =>
  Nat.isDigit_of_mem_toDigits (by decide) (by decide) hc

theorem digits_ne_nil (n : Nat) : digits n ≠ [] := Nat.toDigits_ne_nil

/-- There are no leading zeros. -/
theorem head?_digits {n : Nat} (h : 0 < n) : (digits n).head? ≠ some '0' := by
  have hchar : ∀ d < 10, 0 < d → d.digitChar ≠ '0' := by decide
  unfold digits
  induction n using Nat.strongRecOn with
  | _ n ih =>
    by_cases hn : n < 10
    · rw [Nat.toDigits_of_lt_base hn, List.head?_cons]
      intro he
      exact hchar n hn h (Option.some.inj he)
    · have hhead := ih (n / 10) (by omega) (by omega)
      have hne : Nat.toDigits 10 (n / 10) ≠ [] := Nat.toDigits_ne_nil
      rw [Nat.toDigits_of_base_le (by decide) (by omega)]
      cases hds : Nat.toDigits 10 (n / 10) with
      | nil => exact absurd hds hne
      | cons d ds =>
        rw [hds] at hhead
        exact hhead

theorem toList_intText (n : Int) :
    (intText n).toList = (if n < 0 then ['-'] else []) ++ digits n.natAbs := by
  unfold intText natText
  split <;> simp

theorem isDigit_padded (width n : Nat) : ∀ c ∈ padded width n, c.isDigit = true := by
  intro c hc
  rcases List.mem_append.1 hc with hc | hc
  · obtain ⟨-, rfl⟩ := List.mem_replicate.1 hc
    decide
  · exact isDigit_digits n c hc

theorem padded_ne_nil (width n : Nat) : padded width n ≠ [] := by
  intro h
  exact Nat.toDigits_ne_nil (List.append_eq_nil_iff.1 h).2

theorem length_padded {width n : Nat} (hw : 0 < width) (h : n < tenTo width) :
    (padded width n).length = width := by
  have hle : (digits n).length ≤ width := (Nat.length_toDigits_le_iff (by decide) hw).2 h
  rw [padded, List.length_append, List.length_replicate]
  omega

@[simp] theorem ofDigits_padded (width n : Nat) : ofDigits (padded width n) = n := by
  have hdigits := ofDigits_digits n
  rw [ofDigits] at *
  rw [padded, Nat.ofDigitChars_append, Nat.ofDigitChars_replicate_zero, Nat.mul_zero, hdigits]

/-- A run ends in front of something else. -/
theorem takeWhile_run {α : Type} {p : α → Bool} {as bs : List α} (has : ∀ a ∈ as, p a = true)
    (hbs : ∀ b ∈ bs.head?, p b = false) :
    (as ++ bs).takeWhile p = as ∧ (as ++ bs).dropWhile p = bs := by
  rw [List.takeWhile_append_of_pos has, List.dropWhile_append_of_pos has]
  cases bs with
  | nil => simp
  | cons b bs =>
    have hb : p b = false := hbs b rfl
    simp [hb]

theorem takeWhile_digits {ds r : List Char} (h : ∀ c ∈ ds, c.isDigit = true)
    (hrest : ∀ c ∈ r.head?, c.isDigit = false) :
    (ds ++ r).takeWhile Char.isDigit = ds ∧ (ds ++ r).dropWhile Char.isDigit = r :=
  takeWhile_run h hrest

/-- As many digits as fit, or all digits there are. -/
theorem takeDigits_append {limit : Nat} {ds r : List Char} (h : ∀ c ∈ ds, c.isDigit = true)
    (hle : ds.length ≤ limit)
    (hend : ds.length = limit ∨ ∀ c ∈ r.head?, c.isDigit = false) :
    takeDigits limit (ds ++ r) = (ds, r) := by
  have hrun : ((ds ++ r).take limit).takeWhile Char.isDigit = ds := by
    rw [List.take_append, List.take_of_length_le hle]
    refine (takeWhile_digits h ?_).1
    rcases hend with hlen | hrest
    · simp [hlen]
    · intro c hc
      cases hn : limit - ds.length with
      | zero => simp [hn] at hc
      | succ n =>
        refine hrest c ?_
        rw [hn] at hc
        cases r with
        | nil => simp at hc
        | cons d r => simpa using hc
  simp [takeDigits, hrun]

end BoundSql.Number
