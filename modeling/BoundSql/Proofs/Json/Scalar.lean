import BoundSql.Json.Printer
import BoundSql.Json.Reader
import BoundSql.Proofs.Digits

/-!
# JSON scalars in texts

The literal of an integer is read back as that integer: it has no leading zero, and its
significand stays within 64 bits all the way. The reader takes any number literal for one token,
and any string literal: it spells the string one character at a time, whatever the escape of the
character.
-/
namespace BoundSql.Json

open Number

/-! ## Integers -/

/-- A significand that ends within 64 bits never leaves them. -/
theorem accumulate_eq {ds : List Char} {significand : Nat}
    (h : Nat.ofDigitChars 10 ds significand < 0x10000000000000000) :
    accumulate significand ds = (Nat.ofDigitChars 10 ds significand, []) := by
  induction ds generalizing significand with
  | nil => rw [accumulate, Nat.ofDigitChars_nil]
  | cons c ds ih =>
    have hnext : significand * 10 + (c.toNat - '0'.toNat) =
        10 * significand + (c.toNat - '0'.toNat) := by omega
    rw [Nat.ofDigitChars_cons] at *
    have hle : 10 * significand + (c.toNat - '0'.toNat) ≤
        Nat.ofDigitChars 10 ds (10 * significand + (c.toNat - '0'.toNat)) := by
      rw [Nat.ofDigitChars_eq_ofDigitChars_zero]
      have hpow : 0 < 10 ^ ds.length := Nat.pow_pos (by decide)
      have hmul := Nat.le_mul_of_pos_left (10 * significand + (c.toNat - '0'.toNat)) hpow
      omega
    rw [accumulate, hnext, if_pos (Nat.lt_of_le_of_lt hle h)]
    exact ih h

theorem wholeLiteral_digits (n : Whole) :
    wholeLiteral (decide (n.val < 0)) (digits n.val.natAbs) = .whole n := by
  obtain ⟨n, hfits⟩ := n
  have hdigits : Nat.ofDigitChars 10 (digits n.natAbs) 0 = n.natAbs :=
    ofDigits_digits n.natAbs
  have hread : accumulate 0 (digits n.natAbs) = (n.natAbs, []) := by
    rw [accumulate_eq (by rw [hdigits]; omega), hdigits]
  have hsign : (if decide (n < 0) = true then -(n.natAbs : Int) else n.natAbs) = n := by
    by_cases hn : n < 0
    · rw [if_pos (decide_eq_true hn)]
      omega
    · rw [decide_eq_false hn, if_neg Bool.false_ne_true]
      omega
  have hzero : ¬(([] : List Char) ≠ [] ∨ (decide (n < 0) = true ∧ n.natAbs = 0)) := by
    simp only [ne_eq, not_true_eq_false, decide_eq_true_eq, false_or]
    omega
  rw [wholeLiteral, hread]
  simp only [if_neg hzero, hsign, Whole.ofInt?, dif_pos hfits]
  rfl

theorem numberLiteral?_wholeChars (n : Whole) :
    numberLiteral? (wholeChars n) = some (.whole n) := by
  have hliteral := wholeLiteral_digits n
  have hdigits := takeWhile_digits (r := []) (isDigit_digits n.val.natAbs) (by simp)
  rw [List.append_nil] at hdigits
  have hne : digits n.val.natAbs ≠ [] := digits_ne_nil _
  have hzero : (digits n.val.natAbs).head? = some '0' → digits n.val.natAbs = ['0'] := by
    intro hhead
    rcases Nat.eq_zero_or_pos n.val.natAbs with hn | hn
    · rw [hn]
      rfl
    · exact absurd hhead (head?_digits hn)
  have hvalid : ¬(digits n.val.natAbs = [] ∨
      ((digits n.val.natAbs).head? = some '0' ∧ digits n.val.natAbs ≠ ['0'])) := by
    rintro (h | ⟨h, h'⟩)
    · exact hne h
    · exact h' (hzero h)
  rw [wholeChars, toList_intText]
  by_cases hn : n.val < 0
  · rw [if_pos hn, List.singleton_append, numberLiteral?]
    simp only [hdigits, if_neg hvalid]
    rw [← hliteral, decide_eq_true hn]
  · have hsign : ∀ rest, digits n.val.natAbs ≠ '-' :: rest := by
      intro rest he
      have hdigit := isDigit_digits n.val.natAbs '-' (by rw [he]; exact List.mem_cons_self ..)
      cases hdigit
    rw [if_neg hn, List.nil_append, numberLiteral?]
    · simp only [hdigits, if_neg hvalid]
      rw [← hliteral, decide_eq_false hn]
    · exact hsign

/-! ## Literals -/

theorem isNumberChar_of_isDigit {cs : List Char} (h : ∀ c ∈ cs, c.isDigit = true) :
    ∀ c ∈ cs, isNumberChar c = true := by
  intro c hc
  simp [isNumberChar, h c hc]

theorem isNumberChar_exponent {cs : List Char} {e : Int} (h : Binary64.exponent? cs = some e) :
    ∀ c ∈ cs, isNumberChar c = true := by
  cases cs with
  | nil => simp
  | cons c rest =>
    simp only [Binary64.exponent?] at h
    split at h
    · rename_i hc
      split at h
      · rename_i hds
        have hdigits : ∀ d ∈ (Binary64.takeSign rest).2, isNumberChar d = true :=
          isNumberChar_of_isDigit (List.all_eq_true.1 hds.2)
        have hrest : ∀ d ∈ rest, isNumberChar d = true := by
          unfold Binary64.takeSign at hdigits
          split at hdigits
          · exact List.forall_mem_cons.2 ⟨rfl, hdigits⟩
          · exact List.forall_mem_cons.2 ⟨rfl, hdigits⟩
          · exact hdigits
        refine List.forall_mem_cons.2 ⟨?_, hrest⟩
        rcases hc with rfl | rfl <;> rfl
      · cases h
    · cases h

/-- A number literal has a digit behind its sign and goes on with the characters of numbers. -/
theorem isNumberChar_literal {cs : List Char} {j : Json} (h : numberLiteral? cs = some j) :
    (∀ c ∈ cs, isNumberChar c = true) ∧ ∃ c ∈ cs.head?, c.isDigit = true ∨ c = '-' := by
  unfold numberLiteral? at h
  split at h
  rename_i negative body hsigned
  dsimp only at h
  -- Behind the digits nothing stands, a fraction with its exponent, or an exponent.
  have hbehind : body.takeWhile Char.isDigit ≠ [] ∧
      ∀ c ∈ body.dropWhile Char.isDigit, isNumberChar c = true := by
    split at h
    · cases h
    · rename_i hvalid
      refine ⟨fun hnil => hvalid (.inl hnil), ?_⟩
      split at h
      · rename_i hrest
        simp [hrest]
      · rename_i more hrest
        split at h
        · cases h
        · obtain ⟨e, he, -⟩ := Option.map_eq_some_iff.1 h
          rw [hrest, ← List.takeWhile_append_dropWhile (p := Char.isDigit) (l := more)]
          refine List.forall_mem_cons.2 ⟨rfl, fun c hc => ?_⟩
          rcases List.mem_append.1 hc with hc | hc
          · exact isNumberChar_of_isDigit (List.all_eq_true.1 List.all_takeWhile) c hc
          · exact isNumberChar_exponent he c hc
      · obtain ⟨e, he, -⟩ := Option.map_eq_some_iff.1 h
        exact isNumberChar_exponent he
  have hbody : ∀ c ∈ body, isNumberChar c = true := by
    intro c hc
    rw [← List.takeWhile_append_dropWhile (p := Char.isDigit) (l := body)] at hc
    rcases List.mem_append.1 hc with hc | hc
    · exact isNumberChar_of_isDigit (List.all_eq_true.1 List.all_takeWhile) c hc
    · exact hbehind.2 c hc
  split at hsigned
  · obtain ⟨-, rfl⟩ := Prod.mk.inj hsigned
    exact ⟨List.forall_mem_cons.2 ⟨rfl, hbody⟩, '-', rfl, .inr rfl⟩
  · obtain ⟨-, rfl⟩ := Prod.mk.inj hsigned
    refine ⟨hbody, ?_⟩
    cases cs with
    | nil => exact absurd rfl hbehind.1
    | cons c rest =>
      exact ⟨c, rfl, .inl (Decidable.not_not.1 fun hc =>
        hbehind.1 (List.takeWhile_cons_of_neg hc))⟩

/-! ## Reading characters -/

namespace Cursor

theorem run_cons (s : Cursor) (c : Char) (cs : List Char) :
    s.run (c :: cs) = s.feed c >>= fun t => t.run cs := rfl

/-- Two runs after each other. -/
theorem run_append_eq {s t u : Cursor} {cs ds : List Char} (h : s.run cs = some t)
    (h' : t.run ds = some u) : s.run (cs ++ ds) = some u := by
  rw [run_append, h]
  exact h'

end Cursor

open Cursor

/-! ### Numbers -/

theorem Mode.begin?_number {c : Char} (h : c.isDigit = true ∨ c = '-') :
    Mode.begin? c = some (.number [c], []) := by
  have hne : ∀ d : Char, d.isDigit = false → d ≠ '-' → c ≠ d := by
    rintro d hd hminus rfl
    rcases h with h | h
    · rw [h] at hd
      cases hd
    · exact hminus h
  simp [begin?, h, hne ' ' rfl (by decide), hne '\t' rfl (by decide), hne '\n' rfl (by decide),
    hne '\r' rfl (by decide), hne '[' rfl (by decide), hne ']' rfl (by decide),
    hne '\x7b' rfl (by decide), hne '\x7d' rfl (by decide), hne ',' rfl (by decide),
    hne ':' rfl (by decide), hne '\x22' rfl (by decide)]

theorem run_number {cs : List Char} (h : ∀ c ∈ cs, isNumberChar c = true) (before : List Char)
    (r : Reader) : run ⟨.number before, r⟩ cs = some ⟨.number (cs.reverse ++ before), r⟩ := by
  induction cs generalizing before with
  | nil => rfl
  | cons c cs ih =>
    have hc : isNumberChar c = true := h c (List.mem_cons_self ..)
    have hfeed : feed ⟨.number before, r⟩ c = some ⟨.number (c :: before), r⟩ := by
      simp [feed, Mode.feed, hc]
    have htail : (c :: cs).reverse ++ before = cs.reverse ++ c :: before := by simp
    rw [run_cons, hfeed, htail]
    exact ih (fun d hd => h d (List.mem_cons_of_mem c hd)) (c :: before)

/-- A literal is held until its end. -/
theorem run_literal {cs : List Char} {j : Json} (h : numberLiteral? cs = some j) (r : Reader) :
    run ⟨.between, r⟩ cs = some ⟨.number cs.reverse, r⟩ := by
  obtain ⟨hchars, c, hhead, hc⟩ := isNumberChar_literal h
  obtain ⟨rest, rfl⟩ := List.head?_eq_some_iff.1 hhead
  have hfeed : feed ⟨.between, r⟩ c = some ⟨.number [c], r⟩ := by
    simp [feed, Mode.feed, Mode.begin?_number hc]
  rw [run_cons, hfeed, List.reverse_cons]
  exact run_number (List.forall_mem_cons.1 hchars).2 [c] r

/-! ### Strings -/

/-- What stands between quotation marks takes one spelling to another: characters as they are,
escapes by a letter, and UTF-16 units in hexadecimal. -/
inductive Spells : Spelling → List Char → Spelling → Prop
  | nil (s : Spelling) : Spells s [] s
  | char {s t : Spelling} {c : Char} {cs : List Char} (hquote : c ≠ '\x22') (hslash : c ≠ '\\')
      (hcontrol : 0x20 ≤ c.toNat) (h : Spells (s.push c) cs t) : Spells s (c :: cs) t
  | escape {s t : Spelling} {c d : Char} {cs : List Char} (hletter : unescape? c = some d)
      (h : Spells (s.push d) cs t) : Spells s ('\\' :: c :: cs) t
  | unit {s t : Spelling} {a b c d : Char} {i j k l : Nat} {cs : List Char}
      (ha : hexValue? a = some i) (hb : hexValue? b = some j) (hc : hexValue? c = some k)
      (hd : hexValue? d = some l)
      (h : Spells (s.pushUnit (((i * 16 + j) * 16 + k) * 16 + l)) cs t) :
      Spells s ('\\' :: 'u' :: a :: b :: c :: d :: cs) t

/-- The reader spells alike. -/
theorem run_spells {s t : Spelling} {cs : List Char} (h : Spells s cs t) (r : Reader) :
    run ⟨.string s, r⟩ cs = some ⟨.string t, r⟩ := by
  induction h with
  | nil => rfl
  | @char s t c cs hquote hslash hcontrol _ ih =>
    have hfeed : feed ⟨.string s, r⟩ c = some ⟨.string (s.push c), r⟩ := by
      simp [feed, Mode.feed, hquote, hslash, Nat.not_lt.2 hcontrol]
    rw [run_cons, hfeed]
    exact ih
  | @escape s t c d cs hletter _ ih =>
    have hunit : c ≠ 'u' := by
      rintro rfl
      cases hletter
    have hescape : run ⟨.string s, r⟩ ['\\', c] = some ⟨.string (s.push d), r⟩ := by
      simp [run, feed, Mode.feed, hunit, hletter]
    exact run_append_eq hescape ih
  | @unit s t a b c d i j k l cs ha hb hc hd _ ih =>
    have hhex : run ⟨.string s, r⟩ ['\\', 'u', a, b, c, d] =
        some ⟨.string (s.pushUnit (((i * 16 + j) * 16 + k) * 16 + l)), r⟩ := by
      simp [run, feed, Mode.feed, ha, hb, hc, hd]
    exact run_append_eq hhex ih

/-- A string literal is one token. -/
theorem run_quoted {s : Spelling} {cs : List Char} (h : Spells .empty cs s) (r : Reader) :
    run ⟨.between, r⟩ ('\x22' :: (cs ++ ['\x22'])) =
      (r.step (.string s.text)).map fun r' => ⟨.between, r'⟩ := by
  have hopen : feed ⟨.between, r⟩ '\x22' = some ⟨.string .empty, r⟩ := rfl
  have hclose : run ⟨.string s, r⟩ ['\x22'] =
      (r.step (.string s.text)).map fun r' => ⟨.between, r'⟩ := by
    cases hstep : r.step (.string s.text) <;> simp [run, feed, Mode.feed, hstep]
  rw [run_cons, hopen, Option.bind_eq_bind, Option.bind_some, run_append, run_spells h]
  exact hclose

theorem hexValue?_hexDigit : ∀ n < 16, hexValue? (hexDigit n) = some n := by decide

/-- The escape of a character spells that character, also a control character without a letter of
its own, which is spelt in hexadecimal. -/
theorem spells_escapeChar {s t : Spelling} (hs : s.high = none) {c : Char} {cs : List Char}
    (h : Spells (s.push c) cs t) : Spells s (escapeChar c ++ cs) t := by
  unfold escapeChar
  split
  · subst c
    exact .escape rfl h
  split
  · subst c
    exact .escape rfl h
  split
  · exact .char ‹_› ‹_› ‹_› h
  split
  · subst c
    exact .escape rfl h
  split
  · subst c
    exact .escape rfl h
  split
  · subst c
    exact .escape rfl h
  split
  · subst c
    exact .escape rfl h
  split
  · subst c
    exact .escape rfl h
  · rename_i hcontrol _ _ _ _ _
    have hunit : c.toNat = ((0 * 16 + 0) * 16 + c.toNat / 16) * 16 + c.toNat % 16 := by omega
    have hpush : s.pushUnit c.toNat = s.push c := by
      have hnotLow : ¬0xdc00 ≤ c.toNat := by omega
      have hnotHigh : ¬0xd800 ≤ c.toNat := by omega
      simp [Spelling.pushUnit, Spelling.push, hs, hnotLow, hnotHigh]
    rw [← hpush, hunit] at h
    exact .unit rfl rfl (hexValue?_hexDigit _ (by omega)) (hexValue?_hexDigit _ (by omega)) h

theorem spells_escapes (cs before : List Char) :
    Spells ⟨before, none, false⟩ (cs.flatMap escapeChar) ⟨cs.reverse ++ before, none, false⟩ := by
  induction cs generalizing before with
  | nil => exact .nil _
  | cons c cs ih =>
    have htail : (c :: cs).reverse ++ before = cs.reverse ++ c :: before := by simp
    rw [List.flatMap_cons, htail]
    exact spells_escapeChar rfl (ih (c :: before))

/-- A string literal spells its string. -/
theorem exists_spells (s : String) :
    ∃ cs t, stringChars s = '\x22' :: (cs ++ ['\x22']) ∧ Spells .empty cs t ∧ t.text = some s := by
  refine ⟨_, _, rfl, spells_escapes s.toList [], ?_⟩
  simp [Spelling.text]

end BoundSql.Json
