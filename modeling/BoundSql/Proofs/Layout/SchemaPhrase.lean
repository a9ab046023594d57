import BoundSql.Proofs.Layout.Phrase
import BoundSql.Proofs.Digits

/-!
# Definitions as phrases

Numbers have neither marks nor parentheses in their texts, so what a definition says of a column
is words, names and literals. With that every statement is a phrase.
-/
namespace BoundSql

open Layout

variable {R : RawSql → Prop}

namespace Text

/-- A character that has no part in the shape of a statement. -/
def isPlain (c : Char) : Bool := !isMark c && c != '?' && !isParen c

theorem isWords_ofList {cs : List Char} (hne : cs ≠ []) (h : ∀ c ∈ cs, isPlain c = true) :
    isWords [] (String.ofList cs) = true := by
  have hparens : cs.filter isParen = [] := by
    rw [List.filter_eq_nil_iff]
    intro c hc
    have hplain := h c hc
    simp only [isPlain, Bool.and_eq_true, Bool.not_eq_true'] at hplain
    simp [hplain.2]
  have hmarks : cs.all (fun c => !isMark c && c != '?') = true := by
    rw [List.all_eq_true]
    intro c hc
    have hplain := h c hc
    simp only [isPlain, Bool.and_eq_true] at hplain
    simp [hplain.1]
  simp [isWords, hparens, hmarks, hne]

theorem isPlain_of_isDigit {c : Char} (h : c.isDigit = true) : isPlain c = true := by
  have hne : ∀ d : Char, d.isDigit = false → c ≠ d := by
    rintro d hd rfl
    rw [h] at hd
    cases hd
  have hmark := hne '\x60' rfl
  have hquote := hne '\x27' rfl
  simp [isPlain, isMark, isParen, hmark, hquote, hne '?' rfl, hne '(' rfl,
    hne ')' rfl]

end Text

namespace Number

theorem isPlain_digits (n : Nat) : ∀ c ∈ digits n, Text.isPlain c = true := fun c hc =>
  Text.isPlain_of_isDigit (isDigit_digits n c hc)

theorem isWords_natText (n : Nat) : Text.isWords [] (natText n) = true :=
  Text.isWords_ofList Nat.toDigits_ne_nil (isPlain_digits n)

theorem isWords_intText (n : Int) : Text.isWords [] (intText n) = true := by
  unfold intText
  split
  · have hsign : "-" ++ natText n.natAbs = String.ofList ('-' :: digits n.natAbs) := by
      apply String.toList_inj.1
      simp [natText]
    rw [hsign]
    refine Text.isWords_ofList (by simp) ?_
    intro c hc
    rcases List.mem_cons.1 hc with rfl | hc
    · decide
    · exact isPlain_digits _ c hc
  · exact isWords_natText _

namespace FloatFormat

theorem isPlain_place (f : FloatFormat) {ds : List Char} (point : Int)
    (h : ∀ c ∈ ds, Text.isPlain c = true) : ∀ c ∈ f.place ds point, Text.isPlain c = true := by
  have hpoint : Text.isPlain '.' = true := by decide
  have hzero : Text.isPlain '0' = true := by decide
  intro c hc
  unfold place at hc
  split at hc
  · simp only [List.mem_cons, List.mem_append, List.mem_replicate] at hc
    rcases hc with rfl | rfl | ⟨-, rfl⟩ | hc
    · exact hzero
    · exact hpoint
    · exact hzero
    · exact h c hc
  · by_cases hlen : ds.length ≤ point.toNat
    · simp only [hlen, if_true, List.mem_append, List.mem_replicate] at hc
      rcases hc with (hc | ⟨-, rfl⟩) | hc
      · exact h c hc
      · exact hzero
      · cases hkeep : f.keepFraction <;> simp [hkeep] at hc
        rcases hc with rfl | rfl
        · exact hpoint
        · exact hzero
    · simp only [hlen, if_false, List.mem_append, List.mem_cons] at hc
      rcases hc with hc | rfl | hc
      · exact h c (List.mem_of_mem_take hc)
      · exact hpoint
      · exact h c (List.mem_of_mem_drop hc)

theorem place_ne_nil (f : FloatFormat) {ds : List Char} (point : Int) (h : ds ≠ []) :
    f.place ds point ≠ [] := by
  unfold place
  split
  · simp
  · by_cases hlen : ds.length ≤ point.toNat <;> simp [hlen, h]

/-- A plain number has no exponent, so it is digits around a point. -/
theorem isWords_plain (x : Binary64) : Text.isWords [] (plain.text x) = true := by
  have hmagnitude : ∀ significand exponent,
      plain.magnitude significand exponent ≠ [] ∧
        ∀ c ∈ plain.magnitude significand exponent, Text.isPlain c = true := by
    intro significand exponent
    unfold magnitude
    split
    · exact ⟨place_ne_nil _ _ (by simp), isPlain_place _ _ (isPlain_digits 0)⟩
    · exact ⟨place_ne_nil _ _ Nat.toDigits_ne_nil, isPlain_place _ _ (isPlain_digits _)⟩
  unfold text
  cases x.shape with
  | nan => decide
  | infinite negative => cases negative <;> decide
  | finite negative significand exponent =>
    obtain ⟨hne, hplain⟩ := hmagnitude significand exponent
    refine Text.isWords_ofList (by simp [hne]) ?_
    intro c hc
    rcases List.mem_append.1 hc with hc | hc
    · cases negative with
      | false => simp at hc
      | true =>
        obtain rfl : c = '-' := by simpa using hc
        decide
    · exact hplain c hc

end FloatFormat
end Number

/-! ## Columns -/

namespace Column

theorem phrase_arguments {l : Layout} (h : Phrase R l) :
    Phrase R (.words "(" :: (l ++ [.words ")"])) :=
  .parens_cons rfl rfl h .nil

theorem phrase_typeLayout (c : Column) : Phrase R c.typeLayout := by
  have hnumber : ∀ index fallback, Phrase R [.words (uint32Text (c.arg index fallback))] :=
    fun index fallback => .words_cons (Number.isWords_natText _) .nil
  have hmembers :
      Phrase R (List.intercalate [.words ","] (c.members.map fun m => [.literal m])) := by
    refine .intercalate rfl fun l hl => ?_
    obtain ⟨m, -, rfl⟩ := List.mem_map.1 hl
    exact .atom trivial
  refine .words_cons c.type.isWords_keyword ?_
  cases c.type
  case string => exact phrase_arguments (hnumber 0 255)
  case boolean => exact phrase_arguments (l := [_]) (.words_cons rfl .nil)
  case set | enumeration => exact phrase_arguments hmembers
  case float | double | decimal =>
    exact phrase_arguments (l := [_, _, _])
      (.beside (k := [_]) rfl (hnumber 0 8) (hnumber 1 2))
  all_goals exact .nil

theorem phrase_flagLayout {keyword : String} (hkeyword : Text.isWords [] keyword) (flag : Bool) :
    ∀ l ∈ flagLayout? keyword flag, Phrase R l := by
  intro l hl
  cases flag with
  | false => simp [flagLayout?] at hl
  | true =>
    obtain rfl : l = [.words keyword] := by simpa [flagLayout?, eq_comm] using hl
    exact .words_cons hkeyword .nil

theorem phrase_literalLayout {keyword : String} (hkeyword : Text.isWords [] keyword)
    (text : Option String) : ∀ l ∈ literalLayout? keyword text, Phrase R l := by
  intro l hl
  obtain ⟨t, -, rfl⟩ := Option.map_eq_some_iff.1 hl
  exact .words_cons hkeyword (.words_cons rfl (.atom trivial))

theorem phrase_default {c : Column} (h : ∀ r ∈ c.raws, R r) :
    ∀ l ∈ c.default.bind ColumnDefault.layout?, Phrase R l := by
  intro l hl
  obtain ⟨v, hv, hl⟩ := Option.bind_eq_some_iff.1 hl
  cases v with
  | text t =>
    simp only [ColumnDefault.layout?, Option.ite_none_left_eq_some, Option.some.injEq] at hl
    obtain ⟨-, rfl⟩ := hl
    exact .words_cons rfl (.atom trivial)
  | int n =>
    obtain rfl := Option.some.inj hl
    exact .words_cons rfl (.words_cons (Number.isWords_intText _) .nil)
  | float x =>
    obtain rfl := Option.some.inj hl
    exact .words_cons rfl (.words_cons (Number.FloatFormat.isWords_plain x) .nil)
  | raw r =>
    simp only [ColumnDefault.layout?, Option.ite_none_left_eq_some, Option.some.injEq] at hl
    obtain ⟨-, rfl⟩ := hl
    exact .words_cons rfl (.atom (h _ (by simp [raws, hv])))

theorem phrase_modifierLayouts {c : Column} (h : ∀ r ∈ c.raws, R r) :
    ∀ l ∈ c.modifierLayouts, Phrase R l := by
  intro l hl
  obtain ⟨m, hm, hl⟩ := List.mem_filterMap.1 hl
  simp only [List.mem_cons, List.not_mem_nil, or_false] at hm
  rcases hm with rfl | rfl | rfl | rfl | rfl | rfl | rfl
  · exact phrase_flagLayout rfl _ l hl
  · exact phrase_literalLayout rfl _ l hl
  · exact phrase_literalLayout rfl _ l hl
  · exact phrase_flagLayout rfl _ l hl
  · exact phrase_default h l hl
  · exact phrase_flagLayout rfl _ l hl
  · exact phrase_literalLayout rfl _ l hl

theorem phrase_layout {c : Column} (h : ∀ r ∈ c.raws, R r) : Phrase R c.layout := by
  refine .intercalate rfl fun l hl => ?_
  rcases List.mem_cons.1 hl with rfl | hl
  · exact .atom trivial
  · rcases List.mem_cons.1 hl with rfl | hl
    · exact c.phrase_typeLayout
    · exact phrase_modifierLayouts h l hl

end Column

/-! ## Statements -/

theorem ForeignKey.phrase_layout (k : ForeignKey) : Phrase R k.layout := by
  have hupdate : Phrase R [.words " ON UPDATE ", .words k.onUpdate.keyword] :=
    .words_cons rfl (.words_cons k.onUpdate.isWords_keyword .nil)
  refine .around (k := []) (l := [_]) rfl rfl .nil (.atom trivial) ?_
  refine .around (k := [_]) (l := [_]) rfl rfl (.atom trivial) (.atom trivial) ?_
  exact .words_cons k.onDelete.isWords_keyword hupdate

namespace CreateTable

theorem phrase_primaryKeyLayouts (columns : List Column) :
    ∀ l ∈ primaryKeyLayouts columns, Phrase R l := by
  intro l hl
  unfold primaryKeyLayouts at hl
  split at hl
  · cases hl
  · obtain rfl := List.mem_singleton.1 hl
    exact .parens_cons rfl rfl (Insert.phrase_names _) .nil

theorem phrase_bodyLayout {columns : List Column} (foreignKeys : List ForeignKey)
    (h : ∀ r ∈ columns.flatMap Column.raws, R r) : Phrase R (bodyLayout columns foreignKeys) := by
  have hcolumns : Phrase R (List.intercalate [.words ","] (columns.map Column.layout)) := by
    refine .intercalate rfl fun l hl => ?_
    obtain ⟨c, hc, rfl⟩ := List.mem_map.1 hl
    exact Column.phrase_layout fun r hr => h r (List.mem_flatMap_of_mem hc hr)
  have hkeys : ∀ l ∈ primaryKeyLayouts columns ++ foreignKeys.map ForeignKey.layout,
      Phrase R l := by
    intro l hl
    rcases List.mem_append.1 hl with hl | hl
    · exact phrase_primaryKeyLayouts columns l hl
    · obtain ⟨k, -, rfl⟩ := List.mem_map.1 hl
      exact k.phrase_layout
  refine hcolumns.append_led ?_
  split
  · exact .nil
  · exact .words rfl (.intercalate rfl hkeys)

theorem phrase_layout {q : CreateTable} (h : ∀ r ∈ q.columns.flatMap Column.raws, R r) :
    Phrase R q.layout :=
  .words_cons rfl (.around rfl rfl (Target.phrase_nameLayout _)
    (phrase_bodyLayout _ h) .nil)

end CreateTable

theorem CreateIndex.phrase_layout (q : CreateIndex) : Phrase R q.layout := by
  have hunique : Phrase R (if q.unique then [.words "UNIQUE "] else []) := by
    cases q.unique with
    | true => exact .words_cons rfl .nil
    | false => exact .nil
  refine .words_cons rfl (.beside rfl hunique ?_)
  refine .beside (k := [_]) rfl (.atom trivial) ?_
  exact .around rfl rfl (Target.phrase_nameLayout _) (Insert.phrase_names _) .nil

/-- Every statement is a phrase, with its own raw SQL as the only raw SQL. -/
theorem Query.phrase_layout (q : Query) (h : ∀ r ∈ q.raws, R r) : Phrase R q.layout := by
  cases q with
  | select q => exact Select.phrase_layout q h
  | insert q => exact Insert.phrase_layout h
  | update q => exact Update.phrase_layout h
  | delete q => exact Delete.phrase_layout h
  | createTable q => exact CreateTable.phrase_layout h
  | createIndex q => exact CreateIndex.phrase_layout q

end BoundSql
