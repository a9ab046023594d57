import BoundSql.Proofs.Reading.Definition

/-!
# Arguments of types

A text of limited length and a number with a fraction are written with their arguments. Of the
arguments that are given those above zero are the written ones, and the others are written as the
type's own; so a scale of zero becomes a scale of two. Nothing else is lost: the definition of such
a column, whatever its modifiers are, tells the name, the type and every argument that is written.
-/
namespace BoundSql

open Text

/-- Two runs in front of something else agree together with what follows them. -/
theorem List.run_append_inj {α : Type} {p : α → Bool} {as bs cs ds : List α}
    (has : ∀ a ∈ as, p a = true) (hbs : ∀ b ∈ bs, p b = true)
    (hcs : ∀ c ∈ cs.head?, p c = false) (hds : ∀ d ∈ ds.head?, p d = false)
    (h : as ++ cs = bs ++ ds) : as = bs ∧ cs = ds := by
  obtain ⟨htake, hdrop⟩ := Number.takeWhile_run has hcs
  obtain ⟨htake', hdrop'⟩ := Number.takeWhile_run hbs hds
  rw [h] at htake hdrop
  exact ⟨htake.symm.trans htake', hdrop.symm.trans hdrop'⟩

/-- A number is read up to what is no digit. -/
theorem Number.digits_append_inj {m n : Nat} {c d : Char} {cs ds : List Char}
    (h : digits m ++ c :: cs = digits n ++ d :: ds) (hc : c.isDigit = false)
    (hd : d.isDigit = false) : m = n ∧ c :: cs = d :: ds := by
  obtain ⟨hdigits, hrest⟩ := List.run_append_inj (isDigit_digits m) (isDigit_digits n)
    (by simpa using hc) (by simpa using hd) h
  refine ⟨?_, hrest⟩
  rw [← ofDigits_digits m, hdigits, ofDigits_digits]

namespace ColumnType

/-- A keyword with arguments between parentheses. -/
def applied (t : ColumnType) (args : List UInt32) : String :=
  t.keyword ++ "(" ++ String.intercalate "," (args.map Column.uint32Text) ++ ")"

/-- Of the types with arguments no two are spelled alike. -/
theorem eq_of_keyword {t u : ColumnType} (ht : t.fallbacks ≠ []) (hu : u.fallbacks ≠ [])
    (h : t.keyword.toList = u.keyword.toList) : t = u := by
  have hspelled : ∀ v : ColumnType, v.fallbacks ≠ [] → v.spelled = v := by
    intro v hv
    cases v
    case boolean => exact absurd rfl hv
    all_goals rfl
  have hfound := (ofKeyword?_keyword t).symm.trans ((congrArg ofKeyword? h).trans
    (ofKeyword?_keyword u))
  rw [hspelled t ht, hspelled u hu] at hfound
  exact Option.some.inj hfound

end ColumnType

namespace Column

/-! ## Written arguments -/

section
variable {c : Column} {index : Nat} {a : UInt32}

theorem getElem?_shownArgs (c : Column) (index : Nat) :
    c.shownArgs[index]? = c.type.fallbacks[index]?.map (c.arg index) := List.getElem?_mapIdx

/-- An argument above zero is written as it is given. -/
theorem shownArgs_of_given (hindex : index < c.type.fallbacks.length)
    (h : c.args[index]? = some a) (ha : 0 < a) : c.shownArgs[index]? = some a := by
  have harg : ∀ fallback, c.arg index fallback = a := by
    intro fallback
    rw [arg, h, Option.filter_some, if_pos (decide_eq_true ha), Option.getD_some]
  rw [getElem?_shownArgs, List.getElem?_eq_getElem hindex, Option.map_some, harg]

/-- Zero is not told from an argument that is not given. -/
theorem shownArgs_of_missing (hfallback : c.type.fallbacks[index]? = some a)
    (h : c.args[index]? = none ∨ c.args[index]? = some 0) : c.shownArgs[index]? = some a := by
  have harg : c.arg index a = a := by
    rcases h with h | h <;> rw [arg, h] <;> rfl
  rw [getElem?_shownArgs, hfallback, Option.map_some, harg]

end

theorem typeText_eq_applied {c : Column} (h : c.type.fallbacks ≠ []) :
    c.typeText = c.type.applied c.shownArgs := by
  have hpair : ∀ s t : String, String.intercalate "," [s, t] = s ++ "," ++ t := by
    intro s t
    apply String.toList_inj.1
    simp
  unfold typeText ColumnType.applied shownArgs
  cases htype : c.type
  case string => simp [ColumnType.fallbacks]
  case float | double | decimal =>
    simp [ColumnType.fallbacks, hpair, String.append_assoc]
  all_goals
    rw [htype] at h
    exact absurd rfl h

/-! ## Definitions -/

/-- The characters of a list of arguments determine the arguments and where the list ends. -/
theorem args_append_inj {as bs : List UInt32} (hlength : as.length = bs.length) {r s : List Char}
    (h : List.intercalate [','] (as.map fun n => Number.digits n.toNat) ++ ')' :: r =
      List.intercalate [','] (bs.map fun n => Number.digits n.toNat) ++ ')' :: s) :
    as = bs ∧ r = s := by
  induction as generalizing bs with
  | nil =>
    obtain rfl := List.length_eq_zero_iff.1 hlength.symm
    exact ⟨rfl, (List.cons.inj h).2⟩
  | cons a as ih =>
    cases bs with
    | nil => cases hlength
    | cons b bs =>
      cases as with
      | nil =>
        obtain rfl : bs = [] := List.length_eq_zero_iff.1 (Nat.succ.inj hlength).symm
        rw [List.map_singleton, List.map_singleton, List.intercalate_singleton,
          List.intercalate_singleton] at h
        obtain ⟨hab, hrest⟩ := Number.digits_append_inj h rfl rfl
        exact ⟨congrArg (fun n => [n]) (UInt32.toNat_inj.1 hab), (List.cons.inj hrest).2⟩
      | cons a' as =>
        cases bs with
        | nil => cases hlength
        | cons b' bs =>
          rw [List.map_cons, List.map_cons, List.map_cons, List.map_cons,
            List.intercalate_cons_cons, List.intercalate_cons_cons] at h
          simp only [List.append_assoc, List.singleton_append] at h
          obtain ⟨hab, hrest⟩ := Number.digits_append_inj h rfl rfl
          obtain ⟨heq, hrs⟩ := ih (Nat.succ.inj hlength) (List.cons.inj hrest).2
          rw [UInt32.toNat_inj.1 hab, heq]
          exact ⟨rfl, hrs⟩

/-- What a column with arguments is written as, character by character. -/
theorem toList_text {c : Column} (h : c.type.fallbacks ≠ []) :
    ∃ rest, (c.text .mysql).toList =
      '\x60' :: (doubled '\x60' c.name.toList ++ '\x60' :: ' ' :: (c.type.keyword.toList ++
        '(' :: (List.intercalate [','] (c.shownArgs.map fun n => Number.digits n.toNat) ++
          ')' :: rest))) := by
  obtain ⟨rest, hrest⟩ : ∃ rest, List.intercalate [' ']
      (c.typeText.toList :: c.modifiers.map String.toList) = c.typeText.toList ++ rest := by
    cases c.modifiers with
    | nil => exact ⟨[], by simp⟩
    | cons m ms => exact ⟨_, (List.intercalate_cons_cons ..).trans (List.append_assoc ..)⟩
  have hargs : (String.intercalate "," (c.shownArgs.map uint32Text)).toList =
      List.intercalate [','] (c.shownArgs.map fun n => Number.digits n.toNat) := by
    simp [String.toList_intercalate, uint32Text, Number.natText, Function.comp_def]
  refine ⟨rest, ?_⟩
  have hspace : " ".toList = [' '] := rfl
  rw [text, String.toList_intercalate, List.map_cons, List.map_cons, List.intercalate_cons_cons,
    hspace, hrest, typeText_eq_applied h]
  simp [ColumnType.applied, Dialect.mysql, hargs]

/-- A definition tells the name, the type and the arguments, whatever the modifiers are. -/
theorem args_of_text_eq {c c' : Column} (h : c.type.fallbacks ≠ []) (h' : c'.type.fallbacks ≠ [])
    (htext : c.text .mysql = c'.text .mysql) :
    c.name = c'.name ∧ c.type = c'.type ∧ c.shownArgs = c'.shownArgs := by
  obtain ⟨rest, hrest⟩ := toList_text h
  obtain ⟨rest', hrest'⟩ := toList_text h'
  have hchars := hrest.symm.trans ((congrArg String.toList htext).trans hrest')
  have hunquoted := congrArg (unquote? '\x60') (List.cons.inj hchars).2
  rw [unquote?_doubled _ _ _ (by simp), unquote?_doubled _ _ _ (by simp)] at hunquoted
  obtain ⟨hname, hbehind⟩ := Prod.mk.inj (Option.some.inj hunquoted)
  obtain ⟨hkeyword, hargs⟩ := List.run_append_inj c.type.isUpper_keyword c'.type.isUpper_keyword
    (by simp) (by simp) (List.cons.inj hbehind).2
  have htype := ColumnType.eq_of_keyword h h' hkeyword
  have hlength : c.shownArgs.length = c'.shownArgs.length := by
    rw [shownArgs, shownArgs, List.length_mapIdx, List.length_mapIdx, htype]
  exact ⟨String.toList_inj.1 hname, htype, (args_append_inj hlength (List.cons.inj hargs).2).1⟩

/-- A column whose type has arguments is written with those that are given, if they are above zero,
and with the arguments of its type in the place of the others. Columns with one definition have
the same name, the same type and the same written arguments, whatever else they have. -/
theorem sql_arguments {c : Column} (hname : isBlank c.name = false)
    (hargs : c.type.fallbacks ≠ []) :
    c.sql .mysql = .ok (.ofText (String.intercalate " "
        (Dialect.mysql.quote c.name :: c.type.applied c.shownArgs :: c.modifiers))) ∧
      c.shownArgs.length = c.type.fallbacks.length ∧
      (∀ (i : Nat) (a : UInt32), i < c.type.fallbacks.length → c.args[i]? = some a → 0 < a →
        c.shownArgs[i]? = some a) ∧
      (∀ (i : Nat) (a : UInt32), c.type.fallbacks[i]? = some a →
        c.args[i]? = none ∨ c.args[i]? = some 0 → c.shownArgs[i]? = some a) ∧
      ∀ c' : Column, c'.type.fallbacks ≠ [] → c'.sql .mysql = c.sql .mysql →
        c'.name = c.name ∧ c'.type = c.type ∧ c'.shownArgs = c.shownArgs ∧
          ∀ (i : Nat) (a b : UInt32), i < c.type.fallbacks.length → c.args[i]? = some a →
            c'.args[i]? = some b → 0 < a → 0 < b → b = a := by
  have hcheck : c.check = .ok () := by
    have hmembers : c.type.hasMembers = false := by
      cases htype : c.type
      case set | enumeration => exact absurd (congrArg ColumnType.fallbacks htype) hargs
      all_goals rfl
    simp [check, hname, hmembers]
  have hsql : c.sql .mysql = .ok (.ofText (c.text .mysql)) := by
    rw [sql, hcheck]
    rfl
  refine ⟨?_, List.length_mapIdx, fun _ _ => shownArgs_of_given, fun _ _ => shownArgs_of_missing,
    fun c' hargs' heq => ?_⟩
  · rw [hsql, text, typeText_eq_applied hargs]
  · obtain ⟨⟨⟩, -, hwritten⟩ := Except.bind_eq_ok.1 (heq.trans hsql)
    have htext : c'.text .mysql = c.text .mysql :=
      congrArg Fragment.text (Except.ok.inj hwritten)
    obtain ⟨hname, htype, hshown⟩ := args_of_text_eq hargs' hargs htext
    refine ⟨hname, htype, hshown, fun i a b hi ha hb hapos hbpos => ?_⟩
    have hwritten' := shownArgs_of_given (htype ▸ hi) hb hbpos
    rw [hshown, shownArgs_of_given hi ha hapos] at hwritten'
    exact (Option.some.inj hwritten').symm

/-- A price with a default of its own, and a scale of zero in its arguments. -/
def price : Column :=
  { decimal "net\x60(8,2)" 10 0 with
    unsigned := true
    default := some (.raw ⟨"ROUND(9,4)", []⟩) }

theorem sql_arguments_price :
    isBlank price.name = false ∧ price.type.fallbacks = [8, 2] ∧ price.args = [10, 0] ∧
      price.sql .mysql = .ok (.ofText (String.intercalate " "
        ["\x60net\x60\x60(8,2)\x60", "DECIMAL(10,2)", "UNSIGNED", "DEFAULT ROUND(9,4)"])) ∧
      price.shownArgs = [10, 2] ∧
      ∀ scale, 0 < scale → scale ≠ 2 →
        ({ price with args := [10, scale] } : Column).sql .mysql ≠ price.sql .mysql := by
  obtain ⟨hsql, -, -, -, hdistinct⟩ := sql_arguments (c := price) (by decide) (by decide)
  have hshown : price.shownArgs = [10, 2] := by decide
  have hparts : Dialect.mysql.quote price.name :: price.type.applied price.shownArgs ::
      price.modifiers =
        ["\x60net\x60\x60(8,2)\x60", "DECIMAL(10,2)", "UNSIGNED", "DEFAULT ROUND(9,4)"] := by
    decide +kernel
  refine ⟨by decide, rfl, rfl, hparts ▸ hsql, hshown, fun scale hpos hne heq => hne ?_⟩
  have hscale : ({ price with args := [10, scale] } : Column).shownArgs[1]? = some scale :=
    shownArgs_of_given (Nat.lt_succ_self 1) rfl hpos
  have hsized : ({ price with args := [10, scale] } : Column).type.fallbacks ≠ [] :=
    List.cons_ne_nil 8 [2]
  rw [(hdistinct _ hsized heq).2.2.1, hshown] at hscale
  exact (Option.some.inj hscale).symm

/-- A number without a fraction is defined like one with two digits behind the point. -/
theorem sql_wholeNumber :
    (decimal "n" 10 0).args = [10, 0] ∧
      (decimal "n" 10 0).sql .mysql = .ok (.ofText "\x60n\x60 DECIMAL(10,2)") ∧
      (decimal "n" 10 0).sql .mysql = (decimal "n" 10 2).sql .mysql ∧
      ColumnType.decimal.applied [10, 0] = "DECIMAL(10,0)" := by
  have htext : (decimal "n" 10 0).text .mysql = "\x60n\x60 DECIMAL(10,2)" := by decide +kernel
  have hsame : (decimal "n" 10 2).text .mysql = "\x60n\x60 DECIMAL(10,2)" := by decide +kernel
  have hcheck : ∀ scale, (decimal "n" 10 scale).check = .ok () := by
    have hname : isBlank "n" = false := by decide
    intro scale
    simp [check, decimal, ofType, hname, ColumnType.hasMembers]
  have hsql : ∀ scale, (decimal "n" 10 scale).sql .mysql =
      .ok (.ofText ((decimal "n" 10 scale).text .mysql)) := by
    intro scale
    rw [sql, hcheck]
    rfl
  rw [hsql, hsql, htext, hsame]
  exact ⟨rfl, rfl, rfl, by decide +kernel⟩

end Column
end BoundSql
