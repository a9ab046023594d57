import BoundSql.Sql.Error
import Mathlib.Data.List.DropRight
import Mathlib.Data.List.Induction

/-!
# Spellings of operators

A token spells an operator if it is the operator's keyword once the white space around it is
removed, its letters are in upper case and each run of white space inside it is a single space.
Reading such narrowed text is nothing but removing a prefix, and the order in which operators are
tried then only matters for thirteen keywords.
-/
namespace BoundSql.Operator

/-- Letters in upper case, and a single space for each run of white space. -/
def narrowed : List Char → List Char
  | [] => []
  | c :: cs =>
    if isSeparator c then
      if cs.head?.any isSeparator then narrowed cs else ' ' :: narrowed cs
    else c.toUpper :: narrowed cs

/-- Text without the white space on both sides. -/
def trimmed (cs : List Char) : List Char :=
  (cs.dropWhile isSeparator).rdropWhile isSeparator

/-- What a token says, whatever its white space and the case of its letters. -/
def spelling (token : String) : String := String.ofList (narrowed (trimmed token.toList))

/-- Words in letters of any case, with white space between them. -/
inductive Spells : List String → List Char → Prop
  | word {word : String} {letters : List Char} : letters.map Char.toUpper = word.toList →
      Spells [word] letters
  | cons {word : String} {more : List String} {letters gap rest : List Char} :
      letters.map Char.toUpper = word.toList → gap ≠ [] → (∀ c ∈ gap, isSeparator c = true) →
      Spells more rest → Spells (word :: more) (letters ++ (gap ++ rest))

/-! ## Narrowed text -/

/-- Capitals are the only characters that other characters become. -/
theorem eq_of_toUpper {c d : Char} (hd : d.toNat < 65) (h : c.toUpper = d) : c = d := by
  unfold Char.toUpper at h
  split at h
  · rename_i hletter
    have hval := congrArg Char.toNat h
    simp only [Char.toNat, UInt32.le_iff_toNat_le, UInt32.toNat_add] at hval hletter
    simp at hval hletter
    omega
  · exact h

theorem toUpper_of_isSeparator {c : Char} (h : isSeparator c = true) : c.toUpper = c := by
  simp only [isSeparator, Bool.or_eq_true, beq_iff_eq] at h
  rcases h with ((rfl | rfl) | rfl) | rfl <;> decide

/-- White space has no case, and no letter becomes white space. -/
theorem isSeparator_toUpper (c : Char) : isSeparator c.toUpper = isSeparator c := by
  cases h : isSeparator c with
  | true => rw [toUpper_of_isSeparator h, h]
  | false =>
    apply Bool.eq_false_iff.2
    intro hupper
    have hsmall : c.toUpper.toNat < 65 := by
      simp only [isSeparator, Bool.or_eq_true, beq_iff_eq] at hupper
      rcases hupper with ((hc | hc) | hc) | hc <;> rw [hc] <;> decide
    rw [← eq_of_toUpper hsmall rfl, h] at hupper
    cases hupper

theorem toUpper_ne_space {c : Char} (h : isSeparator c = false) : c.toUpper ≠ ' ' := by
  intro hspace
  rw [← isSeparator_toUpper, hspace] at h
  cases h

theorem narrowed_separator {c : Char} (h : isSeparator c = true) (cs : List Char) :
    narrowed (c :: cs) = ' ' :: narrowed (cs.dropWhile isSeparator) := by
  induction cs generalizing c with
  | nil => simp [narrowed, h]
  | cons d cs ih =>
    by_cases hd : isSeparator d = true
    · rw [narrowed, if_pos h, List.head?_cons, Option.any_some, if_pos hd, ih hd,
        List.dropWhile_cons_of_pos hd]
    · rw [narrowed, if_pos h, List.head?_cons, Option.any_some, if_neg hd,
        List.dropWhile_cons_of_neg hd]

theorem narrowed_letter {c : Char} (h : isSeparator c = false) (cs : List Char) :
    narrowed (c :: cs) = c.toUpper :: narrowed cs := by
  rw [narrowed, h, if_neg Bool.false_ne_true]

theorem narrowed_eq_nil_iff {cs : List Char} : narrowed cs = [] ↔ cs = [] := by
  cases cs with
  | nil => exact iff_of_true rfl rfl
  | cons c cs =>
    refine iff_of_false ?_ (List.cons_ne_nil c cs)
    cases h : isSeparator c with
    | true =>
      rw [narrowed_separator h]
      exact List.cons_ne_nil _ _
    | false =>
      rw [narrowed_letter h]
      exact List.cons_ne_nil _ _

/-- What is left behind an operator counts as nothing, or as one space. -/
theorem all_isSeparator_iff {cs : List Char} :
    cs.all isSeparator = true ↔ narrowed cs = [] ∨ narrowed cs = [' '] := by
  cases cs with
  | nil => exact iff_of_true rfl (.inl rfl)
  | cons c cs =>
    cases h : isSeparator c with
    | true =>
      rw [narrowed_separator h, List.all_cons, h, Bool.true_and, List.cons_eq_cons,
        narrowed_eq_nil_iff, List.dropWhile_eq_nil_iff, List.all_eq_true]
      simp
    | false =>
      rw [narrowed_letter h]
      simp [h, toUpper_ne_space h]

/-- White space at the end of a text adds a space, unless there is some already. -/
theorem narrowed_concat (cs : List Char) (c : Char) :
    narrowed (cs ++ [c]) = narrowed cs ++
      if isSeparator c then if cs.getLast?.any isSeparator then [] else [' ']
      else [c.toUpper] := by
  induction cs with
  | nil => cases h : isSeparator c <;> simp [narrowed, h]
  | cons d cs ih =>
    cases cs with
    | nil =>
      cases hc : isSeparator c <;> cases hd : isSeparator d <;> simp [narrowed, hc, hd]
    | cons e rest =>
      have hlast : (d :: e :: rest).getLast? = (e :: rest).getLast? := List.getLast?_cons_cons
      rw [hlast, List.cons_append, narrowed, ih, List.cons_append, List.head?_cons]
      conv_rhs => rw [narrowed, List.head?_cons]
      split
      · split
        · rfl
        · rfl
      · rfl

/-- Narrowing and removing white space at the end can be done in either order. -/
theorem narrowed_rdropWhile (cs : List Char) :
    narrowed (cs.rdropWhile isSeparator) = (narrowed cs).rdropWhile (· == ' ') := by
  induction cs using List.reverseRecOn with
  | nil => rfl
  | append_singleton cs c ih =>
    rw [narrowed_concat, List.rdropWhile_concat]
    cases hc : isSeparator c with
    | true =>
      rw [if_pos rfl, if_pos rfl, ih]
      split
      · rw [List.append_nil]
      · rw [List.rdropWhile_concat_pos _ _ _ rfl]
    | false =>
      have hne : ¬ (c.toUpper == ' ') = true := by simpa using toUpper_ne_space hc
      rw [if_neg Bool.false_ne_true, if_neg Bool.false_ne_true, List.rdropWhile_concat,
        if_neg hne, narrowed_concat, hc, if_neg Bool.false_ne_true]

/-- Of the white space at the end a single space is left. -/
theorem narrowed_eq_append (cs : List Char) :
    narrowed cs = narrowed (cs.rdropWhile isSeparator) ++
      if cs.getLast?.any isSeparator then [' '] else [] := by
  induction cs using List.reverseRecOn with
  | nil => rfl
  | append_singleton cs c ih =>
    rw [List.rdropWhile_concat, List.getLast?_concat, Option.any_some]
    cases hc : isSeparator c with
    | true =>
      rw [narrowed_concat, hc, if_pos rfl, if_pos rfl, if_pos rfl]
      split at ih
      · rename_i hlast
        rw [if_pos hlast, List.append_nil, ih]
      · rename_i hlast
        rw [if_neg hlast, ih, List.append_nil]
    | false => rw [if_neg Bool.false_ne_true, if_neg Bool.false_ne_true, List.append_nil]

/-! ## Reading narrowed text -/

/-- The words with single spaces between them. -/
def joinedWords (words : List String) : List Char :=
  List.intercalate [' '] (words.map String.toList)

/-- A word is not empty, and no white space stands inside it. -/
def IsWord (word : String) : Prop :=
  word.toList ≠ [] ∧ ∀ c ∈ word.toList, isSeparator c = false

theorem keyword_toList (op : Operator) : op.keyword.toList = joinedWords op.words :=
  String.toList_intercalate

theorem isWord_words (op : Operator) : ∀ word ∈ op.words, IsWord word := by
  have hall : op.words.all (fun word => !word.toList.isEmpty &&
      word.toList.all fun c => !isSeparator c) = true := by
    cases op <;> decide
  intro word hword
  simpa [IsWord] using List.all_eq_true.1 hall word hword

theorem isPrefixOf?_append (s t cs : List Char) :
    (s ++ t).isPrefixOf? cs = (s.isPrefixOf? cs).bind t.isPrefixOf? := by
  induction s generalizing cs with
  | nil => rfl
  | cons c s ih =>
    cases cs with
    | nil => rfl
    | cons d cs =>
      rw [List.cons_append, List.isPrefixOf?, List.isPrefixOf?, ih]
      split
      · rfl
      · rfl

/-- Skipping a word of any case removes a prefix of the narrowed text. -/
theorem map_skipWord? {word : List Char} (h : ∀ c ∈ word, isSeparator c = false)
    (cs : List Char) : (skipWord? word cs).map narrowed = word.isPrefixOf? (narrowed cs) := by
  induction word generalizing cs with
  | nil => rfl
  | cons w word ih =>
    have hw := h w (List.mem_cons_self ..)
    have hrest := ih fun c hc => h c (List.mem_cons_of_mem w hc)
    cases cs with
    | nil => rfl
    | cons c cs =>
      cases hc : isSeparator c with
      | true =>
        have hne : c.toUpper ≠ w := by
          rintro rfl
          rw [isSeparator_toUpper, hc] at hw
          cases hw
        have hspace : ¬ (w == ' ') = true := by
          intro heq
          rw [beq_iff_eq.1 heq] at hw
          cases hw
        rw [skipWord?, if_neg hne, narrowed_separator hc, List.isPrefixOf?, if_neg hspace]
        rfl
      | false =>
        rw [skipWord?, narrowed_letter hc, List.isPrefixOf?]
        by_cases hw : c.toUpper = w
        · rw [if_pos hw, if_pos (beq_iff_eq.2 hw.symm), hrest]
        · rw [if_neg hw, if_neg fun heq => hw (beq_iff_eq.1 heq).symm]
          rfl

theorem map_skipWords? {words : List String} (h : ∀ word ∈ words, IsWord word)
    (cs : List Char) :
    (skipWords? words cs).map narrowed = (joinedWords words).isPrefixOf? (narrowed cs) := by
  induction words generalizing cs with
  | nil => rfl
  | cons word more ih =>
    have hword := map_skipWord? (h word (List.mem_cons_self ..)).2 cs
    cases more with
    | nil => simpa [skipWords?, joinedWords] using hword
    | cons next more =>
      have hmore := ih fun w hw => h w (List.mem_cons_of_mem word hw)
      have hjoined : joinedWords (word :: next :: more) =
          word.toList ++ ' ' :: joinedWords (next :: more) := by
        simp [joinedWords, List.intercalate_cons_cons]
      rw [hjoined, isPrefixOf?_append, ← hword]
      simp only [skipWords?]
      -- Behind the word there must be white space, as narrowed text must go on with a space.
      split
      · rename_i c rest hskip
        rw [hskip, Option.map_some, Option.bind_some]
        cases hc : isSeparator c with
        | true =>
          rw [if_pos rfl, narrowed_separator hc, List.isPrefixOf?, if_pos (beq_self_eq_true ' '),
            hmore]
        | false =>
          have hne : ¬ (' ' == c.toUpper) = true := by simpa using (toUpper_ne_space hc).symm
          rw [if_neg Bool.false_ne_true, narrowed_letter hc, List.isPrefixOf?, if_neg hne]
          rfl
      · rename_i hnone
        cases hskip : skipWord? word.toList cs with
        | none => rfl
        | some rest =>
          cases rest with
          | nil => rfl
          | cons c rest => exact absurd hskip (hnone c rest)

/-- The first operator whose keyword a narrowed text begins with, and what is left behind it. -/
def choose (cs : List Char) : Option (Operator × List Char) :=
  choices.findSome? fun op => (op.keyword.toList.isPrefixOf? cs).map (op, ·)

theorem map_take? (cs : List Char) :
    (take? cs).map (fun choice => (choice.1, narrowed choice.2)) = choose (narrowed cs) := by
  rw [take?, choose, List.map_findSome?]
  congr 1
  funext op
  rw [Function.comp_apply, Option.map_map, keyword_toList, ← map_skipWords? (isWord_words op),
    Option.map_map]
  rfl

/-- What begins with an operator's keyword goes on with what is left behind it. -/
theorem eq_append_of_choose {cs rest : List Char} {op : Operator}
    (h : choose cs = some (op, rest)) : cs = op.keyword.toList ++ rest := by
  obtain ⟨op', -, hop⟩ := List.exists_of_findSome?_eq_some h
  obtain ⟨rest', hprefix, heq⟩ := Option.map_eq_some_iff.1 hop
  obtain ⟨rfl, rfl⟩ := Prod.mk.inj heq
  exact (List.isPrefixOf?_eq_some_iff_append_eq.1 hprefix).symm

/-- No operator is taken for another, even in front of a space. -/
theorem choose_keyword (op : Operator) {rest : List Char} (h : rest = [] ∨ rest = [' ']) :
    choose (op.keyword.toList ++ rest) = some (op, rest) := by
  rcases h with rfl | rfl <;> cases op <;> decide

theorem rdropWhile_keyword (op : Operator) {rest : List Char} (h : rest = [] ∨ rest = [' ']) :
    (op.keyword.toList ++ rest).rdropWhile (· == ' ') = op.keyword.toList := by
  rcases h with rfl | rfl <;> cases op <;> decide

/-- A token spells an operator if nothing but white space is left behind it, and the operator is the
only one then. -/
theorem parse?_eq_some_iff (token : String) (op : Operator) :
    parse? token = some op ↔ spelling token = op.keyword := by
  have htake := map_take? (token.toList.dropWhile isSeparator)
  have hnarrowed := narrowed_eq_append (token.toList.dropWhile isSeparator)
  have hspelling : (spelling token).toList =
      narrowed ((token.toList.dropWhile isSeparator).rdropWhile isSeparator) :=
    String.toList_ofList
  rw [← String.toList_inj, hspelling]
  constructor
  · intro h
    obtain ⟨rest, hop, hall⟩ : ∃ rest,
        take? (token.toList.dropWhile isSeparator) = some (op, rest) ∧
          rest.all isSeparator = true := by
      unfold parse? at h
      split at h
      · rename_i op' rest hop
        obtain ⟨hall, hsome⟩ := Option.ite_none_right_eq_some.1 h
        exact ⟨rest, Option.some.inj hsome ▸ hop, hall⟩
      · cases h
    rw [hop, Option.map_some] at htake
    rw [narrowed_rdropWhile, eq_append_of_choose htake.symm]
    exact rdropWhile_keyword op (all_isSeparator_iff.1 hall)
  · intro h
    obtain ⟨rest, hrest, hkeyword⟩ : ∃ rest, (rest = [] ∨ rest = [' ']) ∧
        narrowed (token.toList.dropWhile isSeparator) = op.keyword.toList ++ rest := by
      rw [← h]
      split at hnarrowed
      · exact ⟨[' '], .inr rfl, hnarrowed⟩
      · exact ⟨[], .inl rfl, hnarrowed⟩
    rw [hkeyword, choose_keyword op hrest] at htake
    obtain ⟨⟨op', left⟩, hop, heq⟩ := Option.map_eq_some_iff.1 htake
    obtain ⟨rfl, rfl⟩ := Prod.mk.inj heq
    rw [parse?, hop]
    exact if_pos (all_isSeparator_iff.2 hrest)

/-! ## Spelled words -/

theorem narrowed_letters {letters word : List Char} (h : letters.map Char.toUpper = word)
    (hword : ∀ c ∈ word, isSeparator c = false) (rest : List Char) :
    narrowed (letters ++ rest) = word ++ narrowed rest := by
  subst h
  induction letters with
  | nil => rfl
  | cons c letters ih =>
    have hc := hword c.toUpper (List.mem_cons_self ..)
    rw [isSeparator_toUpper] at hc
    rw [List.cons_append, narrowed_letter hc, List.map_cons, List.cons_append,
      ih fun d hd => hword d (List.mem_cons_of_mem _ hd)]

/-- Spelled words begin with a letter. -/
theorem Spells.dropWhile_append {words : List String} {cs : List Char} (h : Spells words cs)
    (hwords : ∀ word ∈ words, IsWord word) (rest : List Char) :
    (cs ++ rest).dropWhile isSeparator = cs ++ rest := by
  have hletters : ∀ {word : String} {letters : List Char}, IsWord word →
      letters.map Char.toUpper = word.toList →
      ∀ rest, (letters ++ rest).dropWhile isSeparator = letters ++ rest := by
    intro word letters hword hupper rest
    obtain ⟨hne, hplain⟩ := hword
    rw [← hupper] at hne hplain
    cases letters with
    | nil => exact absurd rfl hne
    | cons c letters =>
      have hc := hplain c.toUpper (List.mem_cons_self ..)
      rw [isSeparator_toUpper] at hc
      rw [List.cons_append, List.dropWhile_cons_of_neg (by simp [hc])]
  cases h with
  | @word word _ hupper => exact hletters (hwords word (List.mem_singleton_self word)) hupper rest
  | @cons word _ letters gap cs hupper _ _ _ =>
    rw [List.append_assoc]
    exact hletters (hwords word (List.mem_cons_self ..)) hupper _

/-- Words in any case are narrowed to the words themselves. -/
theorem Spells.narrowed_append {words : List String} {cs : List Char} (h : Spells words cs)
    (hwords : ∀ word ∈ words, IsWord word) (rest : List Char) :
    narrowed (cs ++ rest) = joinedWords words ++ narrowed rest := by
  induction h with
  | @word word letters hupper =>
    rw [narrowed_letters hupper (hwords word (List.mem_singleton_self word)).2]
    simp [joinedWords]
  | @cons word more letters gap cs hupper hgap hseparators hspells ih =>
    have hmore : ∀ w ∈ more, IsWord w := fun w hw => hwords w (List.mem_cons_of_mem word hw)
    have hjoined : joinedWords (word :: more) = word.toList ++ ' ' :: joinedWords more := by
      cases hspells <;> simp [joinedWords, List.intercalate_cons_cons]
    obtain ⟨g, gap, rfl⟩ := List.exists_cons_of_ne_nil hgap
    have hgaps : ∀ c ∈ gap, isSeparator c = true :=
      fun c hc => hseparators c (List.mem_cons_of_mem g hc)
    calc narrowed (letters ++ (g :: gap ++ cs) ++ rest)
        = word.toList ++ narrowed (g :: (gap ++ (cs ++ rest))) := by
          rw [List.append_assoc, List.append_assoc, List.cons_append]
          exact narrowed_letters hupper (hwords word (List.mem_cons_self ..)).2 _
      _ = word.toList ++ ' ' :: narrowed (cs ++ rest) := by
          rw [narrowed_separator (hseparators g (List.mem_cons_self ..)),
            List.dropWhile_append_of_pos hgaps, hspells.dropWhile_append hmore]
      _ = joinedWords (word :: more) ++ narrowed rest := by
          rw [ih hmore, hjoined, List.append_assoc, List.cons_append]

theorem Spells.spelling_eq {op : Operator} {token : String} {before words after : List Char}
    (hbefore : ∀ c ∈ before, isSeparator c = true) (hafter : ∀ c ∈ after, isSeparator c = true)
    (h : Spells op.words words) (htoken : token.toList = before ++ (words ++ after)) :
    spelling token = op.keyword := by
  have hrest : narrowed after = [] ∨ narrowed after = [' '] :=
    all_isSeparator_iff.1 (List.all_eq_true.2 hafter)
  rw [← String.toList_inj, spelling, String.toList_ofList, trimmed, htoken,
    List.dropWhile_append_of_pos hbefore, h.dropWhile_append (isWord_words op),
    narrowed_rdropWhile, h.narrowed_append (isWord_words op), ← keyword_toList]
  exact rdropWhile_keyword op hrest

/-- A token is read as an operator exactly if it spells the operator's keyword, and any other token
is refused as it stands. In particular an operator is read from its words in letters of any case,
with any white space between them and on both sides. -/
theorem parse_spelling (token : String) :
    (∀ op : Operator, parse token = .ok op ↔ spelling token = op.keyword) ∧
      (∀ e, parse token = .error e ↔
        e = .unknownOperator token ∧ ∀ op : Operator, spelling token ≠ op.keyword) ∧
      ∀ (op : Operator) (before words after : List Char),
        (∀ c ∈ before, isSeparator c = true) → (∀ c ∈ after, isSeparator c = true) →
          Spells op.words words → token.toList = before ++ (words ++ after) →
            parse token = .ok op := by
  have hok : ∀ op : Operator, parse token = .ok op ↔ spelling token = op.keyword := by
    intro op
    rw [← parse?_eq_some_iff, parse]
    cases parse? token with
    | none => simp
    | some op' => simp
  refine ⟨hok, fun e => ⟨fun h => ?_, ?_⟩, ?_⟩
  · have hne : ∀ op : Operator, spelling token ≠ op.keyword := by
      intro op hop
      rw [(hok op).2 hop] at h
      cases h
    refine ⟨?_, hne⟩
    unfold parse at h
    split at h
    · cases h
    · exact (Except.error.inj h).symm
  · rintro ⟨rfl, hne⟩
    rw [parse]
    cases hop : parse? token with
    | none => rfl
    | some op => exact absurd ((parse?_eq_some_iff token op).1 hop) (hne op)
  · intro op before words after hbefore hafter hspells htoken
    exact (hok op).2 (Spells.spelling_eq hbefore hafter hspells htoken)

/-- A token with much white space, one without any, and one with white space in a symbol. -/
theorem parse_spelling_isNotNull :
    parse "\tIs \r\nnOt  NULL " = .ok .isNotNull ∧
      spelling "\tIs \r\nnOt  NULL " = "IS NOT NULL" ∧
      parse "isnull" = .error (.unknownOperator "isnull") ∧
      parse "> =" = .error (.unknownOperator "> =") := by
  have hwords : Spells ["IS", "NOT", "NULL"]
      (['I', 's'] ++ ([' ', '\r', '\n'] ++ (['n', 'O', 't'] ++ ([' ', ' '] ++
        ['N', 'U', 'L', 'L'])))) :=
    .cons rfl (by decide) (List.all_eq_true.1 rfl)
      (.cons rfl (by decide) (List.all_eq_true.1 rfl) (.word rfl))
  obtain ⟨hok, -, hspells⟩ := parse_spelling "\tIs \r\nnOt  NULL "
  have hparse := hspells .isNotNull ['\t'] _ [' '] (List.all_eq_true.1 rfl)
    (List.all_eq_true.1 rfl) hwords rfl
  have hjoined : ∀ op : Operator, spelling "isnull" ≠ op.keyword := by
    intro op
    cases op <;> decide
  have hsplit : ∀ op : Operator, spelling "> =" ≠ op.keyword := by
    intro op
    cases op <;> decide
  exact ⟨hparse, (hok .isNotNull).1 hparse, ((parse_spelling "isnull").2.1 _).2 ⟨rfl, hjoined⟩,
    ((parse_spelling "> =").2.1 _).2 ⟨rfl, hsplit⟩⟩

end BoundSql.Operator
