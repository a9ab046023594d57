import BoundSql.Calendar.DateTime
import BoundSql.Proofs.Digits

/-!
# Dates and times in texts

A field that is padded to its width is read back with nothing but its digits, so the fields of a
date or a time need no white space between them. Every date and every time is read back from
its text.
-/
namespace BoundSql

namespace Text

theorem isSpace_of_isDigit {c : Char} (h : c.isDigit = true) : isSpace c = false := by
  have hrange : 48 ≤ c.toNat ∧ c.toNat ≤ 57 := by
    simp only [Char.isDigit, Bool.and_eq_true, decide_eq_true_eq] at h
    exact ⟨h.1, h.2⟩
  simp only [isSpace, Bool.or_eq_false_iff, Bool.and_eq_false_iff, decide_eq_false_iff_not,
    beq_eq_false_iff_ne]
  omega

theorem trimStart_cons {c : Char} (h : isSpace c = false) (rest : List Char) :
    trimStart (c :: rest) = c :: rest := by
  simp [trimStart, h]

theorem trimStart_digits {ds : List Char} (hne : ds ≠ []) (h : ∀ c ∈ ds, c.isDigit = true)
    (rest : List Char) : trimStart (ds ++ rest) = ds ++ rest := by
  cases ds with
  | nil => exact absurd rfl hne
  | cons c ds => exact trimStart_cons (isSpace_of_isDigit (h c (List.mem_cons_self ..))) _

end Text

namespace Calendar

open Number Text

theorem field_padded {limit n : Nat} (hlimit : 0 < limit) (h : n < tenTo limit)
    (rest : List Char) : field limit (padded limit n ++ rest) = some (n, rest) := by
  have hlen := length_padded hlimit h
  rw [field, trimStart_digits (padded_ne_nil limit n) (isDigit_padded limit n),
    takeDigits_append (isDigit_padded limit n) (Nat.le_of_eq hlen) (.inl hlen)]
  simp [padded_ne_nil]

theorem field_two {n : Nat} (h : n < 100) (rest : List Char) :
    field 2 (padded 2 n ++ rest) = some (n, rest) := field_padded (by decide) h rest

theorem signedDigits_padded (width n : Nat) {rest : List Char}
    (hrest : ∀ c ∈ rest.head?, c.isDigit = false) :
    signedDigits (padded width n ++ rest) = some (n, rest) := by
  obtain ⟨htake, hdrop⟩ := takeWhile_digits (isDigit_padded width n) hrest
  rw [signedDigits, htake, hdrop]
  simp [padded_ne_nil]

theorem mark_cons {c : Char} (h : isSpace c = false) (rest : List Char) :
    mark c (c :: rest) = some rest := by
  rw [mark, trimStart_cons h, expect, if_pos rfl]

/-- A year is read up to the first character that is no digit. -/
theorem yearField_yearText (year : Int) {rest : List Char}
    (hrest : ∀ c ∈ rest.head?, c.isDigit = false) :
    yearField (yearText year ++ rest) = some (year, rest) := by
  unfold yearText
  split
  · rename_i h
    have hfield : field 4 (padded 4 year.natAbs ++ rest) = some (year.natAbs, rest) :=
      field_padded (by decide) (show year.natAbs < 10000 by omega) rest
    have hyear : (year.natAbs : Int) = year := by omega
    have hhead : ∀ c r, padded 4 year.natAbs ++ rest = c :: r → c.isDigit = true := by
      intro c r hc
      have hall := isDigit_padded 4 year.natAbs
      cases hpadded : padded 4 year.natAbs with
      | nil => exact absurd hpadded (padded_ne_nil 4 _)
      | cons d ds =>
        rw [hpadded] at hc hall
        cases hc
        exact hall _ (List.mem_cons_self ..)
    unfold yearField
    rw [trimStart_digits (padded_ne_nil 4 _) (isDigit_padded 4 _)]
    split
    · rename_i r hr
      cases hhead _ r hr
    · rename_i r hr
      cases hhead _ r hr
    · simp only [hfield, Option.map_some, hyear]
  · rename_i h
    have hdigits : signedDigits (padded 4 year.natAbs ++ rest) = some (year.natAbs, rest) :=
      signedDigits_padded 4 _ hrest
    unfold yearField
    by_cases hneg : year < 0
    · have hyear : -(year.natAbs : Int) = year := by omega
      rw [if_pos hneg, List.cons_append, trimStart_cons (by decide)]
      simp only [hdigits, Option.map_some, hyear]
    · have hyear : (year.natAbs : Int) = year := by omega
      rw [if_neg hneg, List.cons_append, trimStart_cons (by decide)]
      simp only [hdigits, Option.map_some, hyear]

end Calendar

open Calendar Number Text

namespace Date

theorem read_chars (d : Date) (rest : List Char) : read (d.chars ++ rest) = some (d, rest) := by
  obtain ⟨year, month, day, isDay⟩ := d
  have hmonth : month < 100 := by
    obtain ⟨-, -, -, hle, -⟩ := isDay
    omega
  have hday : day < 100 := by
    obtain ⟨-, -, -, -, -, hle⟩ := isDay
    have hdays : daysInMonth year month ≤ 31 := by
      unfold daysInMonth
      split
      · split <;> omega
      · split <;> omega
    omega
  have hyear : ∀ cs, yearField (yearText year ++ '-' :: cs) = some (year, '-' :: cs) :=
    fun cs => yearField_yearText year (by simp)
  have hmark : ∀ cs, mark '-' ('-' :: cs) = some cs := mark_cons (by decide)
  rw [read, chars]
  simp only [List.append_assoc, List.cons_append, hyear, hmark, Option.bind_eq_bind,
    Option.bind_some, field_two hmonth, field_two hday, ofParts?, isDay, dif_pos]
  rfl

theorem parse?_text (d : Date) : parse? d.text = some d := by
  have hread := read_chars d []
  rw [List.append_nil] at hread
  rw [parse?, text, String.toList_ofList, hread]
  rfl

end Date

namespace Clock

/-- A fraction has one of three widths, and says the nanoseconds in each. -/
theorem readFraction_fraction (t : Clock) :
    readFraction t.fraction = some (t.nanosecond, []) := by
  have hread : ∀ width n, 0 < width → width ≤ 9 → n < tenTo width →
      readFraction ('.' :: padded width n) = some (n * tenTo (9 - width), []) := by
    intro width n hpos hle h
    have hlen := length_padded hpos h
    have htake := takeDigits_append (r := []) (isDigit_padded width n) (hlen ▸ hle)
      (.inr (by simp))
    rw [List.append_nil] at htake
    simp [readFraction, htake, padded_ne_nil, hlen]
  obtain ⟨hour, minute, second, nanosecond, onClock⟩ := t
  obtain ⟨-, -, -, hlt⟩ := onClock
  unfold fraction
  simp only
  split
  · simp_all [readFraction]
  · split
    · rename_i hmod
      rw [hread 3 _ (by decide) (by decide) (show _ < 1000 by omega)]
      have hten : nanosecond / 1000000 * tenTo (9 - 3) = nanosecond := by
        have hpow : tenTo (9 - 3) = 1000000 := by decide
        rw [hpow]
        omega
      rw [hten]
    · split
      · rename_i hmod
        rw [hread 6 _ (by decide) (by decide) (show _ < 1000000 by omega)]
        have hten : nanosecond / 1000 * tenTo (9 - 6) = nanosecond := by
          have hpow : tenTo (9 - 6) = 1000 := by decide
          rw [hpow]
          omega
        rw [hten]
      · rw [hread 9 _ (by decide) (by decide) hlt]
        have hten : nanosecond * tenTo (9 - 9) = nanosecond := Nat.mul_one _
        rw [hten]

theorem read_chars (t : Clock) : read (t.seconds ++ t.fraction) = some (t, []) := by
  have hfraction := readFraction_fraction t
  have hclock : ofParts? t.hour t.minute t.second t.nanosecond = some t := dif_pos t.onClock
  obtain ⟨hhour, hminute, hsecond, -⟩ := t.onClock
  have hmark : ∀ cs, mark ':' (':' :: cs) = some cs := mark_cons (by decide)
  rw [read, seconds]
  simp only [List.append_assoc, List.cons_append, hmark, Option.bind_eq_bind, Option.bind_some,
    field_two (show t.hour < 100 by omega), field_two (show t.minute < 100 by omega),
    field_two (show t.second < 100 by omega), hfraction, hclock]
  rfl

end Clock

theorem DateTime.parse?_text (t : DateTime) : parse? t.text = some t := by
  obtain ⟨date, clock⟩ := t
  have hmark : ∀ cs, mark 'T' ('T' :: cs) = some cs := mark_cons (by decide)
  rw [parse?, text, String.toList_ofList]
  simp only [List.append_assoc, List.cons_append, Date.read_chars, Option.bind_eq_bind,
    Option.bind_some, hmark, Clock.read_chars]
  rfl

end BoundSql
