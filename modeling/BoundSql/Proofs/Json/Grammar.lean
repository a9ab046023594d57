import BoundSql.Proofs.Json.Scalar

/-!
# The grammar of JSON texts

A text of a value may have white space around every value, name and punctuation mark, and may
spell its numbers and strings in any way. Whatever the text, the reader finds the value that it
says. A number or a word shows its end only in the character behind it, so a cursor that has read a
value may still hold its last token; it then goes on as if it had handed the token over.
-/
namespace BoundSql.Json

open Cursor Reader

/-! ## Texts -/

/-- Nothing but white space. -/
def AreBlank (cs : List Char) : Prop := ∀ c ∈ cs, c = ' ' ∨ c = '\t' ∨ c = '\n' ∨ c = '\r'

/-- The object with these members, if all of their names can be read. -/
def ofMembers (members : List (Option String × Json)) : Json :=
  match members.mapM fun (name, j) => name.map (·, j) with
  | some members => .object members
  | none => .unreadable

mutual

/-- A text of a value, in which at most so many arrays and objects stand in each other. -/
inductive IsText : Nat → Json → List Char → Prop
  | null {n : Nat} : IsText n .null "null".toList
  | true {n : Nat} : IsText n (.bool .true) "true".toList
  | false {n : Nat} : IsText n (.bool .false) "false".toList
  | number {n : Nat} {j : Json} {cs : List Char} (h : numberLiteral? cs = some j) : IsText n j cs
  | string {n : Nat} {s : Spelling} {cs : List Char} (h : Spells .empty cs s) :
      IsText n ((s.text.map .string).getD .unreadable) ('\x22' :: (cs ++ ['\x22']))
  | noItems {n : Nat} {ws : List Char} (h : AreBlank ws) :
      IsText (n + 1) (.array []) ('[' :: (ws ++ [']']))
  | array {n : Nat} {items : List Json} {cs : List Char} (h : AreItems n items cs) :
      IsText (n + 1) (.array items) ('[' :: (cs ++ [']']))
  | noMembers {n : Nat} {ws : List Char} (h : AreBlank ws) :
      IsText (n + 1) (.object []) ('\x7b' :: (ws ++ ['\x7d']))
  | object {n : Nat} {members : List (Option String × Json)} {cs : List Char}
      (h : AreMembers n members cs) :
      IsText (n + 1) (ofMembers members) ('\x7b' :: (cs ++ ['\x7d']))

/-- A text with white space around it. -/
inductive IsSpaced : Nat → Json → List Char → Prop
  | intro {n : Nat} {j : Json} {before cs after : List Char} (hbefore : AreBlank before)
      (h : IsText n j cs) (hafter : AreBlank after) : IsSpaced n j (before ++ (cs ++ after))

/-- One item or more, with commas between them. -/
inductive AreItems : Nat → List Json → List Char → Prop
  | single {n : Nat} {j : Json} {cs : List Char} (h : IsSpaced n j cs) : AreItems n [j] cs
  | cons {n : Nat} {j : Json} {rest : List Json} {cs more : List Char} (h : IsSpaced n j cs)
      (hrest : AreItems n rest more) : AreItems n (j :: rest) (cs ++ ',' :: more)

/-- A name, a colon and a value. -/
inductive IsMember : Nat → Option String × Json → List Char → Prop
  | intro {n : Nat} {s : Spelling} {j : Json} {before name after cs : List Char}
      (hbefore : AreBlank before) (hname : Spells .empty name s) (hafter : AreBlank after)
      (h : IsSpaced n j cs) :
      IsMember n (s.text, j) (before ++ ('\x22' :: (name ++ ['\x22']) ++ (after ++ ':' :: cs)))

/-- One member or more, with commas between them. -/
inductive AreMembers : Nat → List (Option String × Json) → List Char → Prop
  | single {n : Nat} {m : Option String × Json} {cs : List Char} (h : IsMember n m cs) :
      AreMembers n [m] cs
  | cons {n : Nat} {m : Option String × Json} {rest : List (Option String × Json)}
      {cs more : List Char} (h : IsMember n m cs) (hrest : AreMembers n rest more) :
      AreMembers n (m :: rest) (cs ++ ',' :: more)

end

/-- A text that says this value and nests no deeper than the reader follows. -/
def IsDocument (text : String) (j : Json) : Prop := IsSpaced depthLimit j text.toList

/-! ## The end of a value -/

/-- What the cursor has seen amounts to this reader, unless its last token goes on. -/
structure Cursor.Settles (s : Cursor) (r : Reader) : Prop where
  finish : s.finish? = r.result?
  feed : ∀ c, isNumberChar c = false → c.isLower = false → s.feed c = Cursor.feed ⟨.between, r⟩ c

theorem Cursor.settles_between (r : Reader) : Settles ⟨.between, r⟩ r := ⟨rfl, fun _ _ _ => rfl⟩

/-- A cursor that holds a token hands it over at the end or at the next character. -/
theorem Cursor.settles_token {m : Mode} {r r' : Reader} {t : Token} (hstep : r.step t = some r')
    (hfinish : m.finish? = some [t])
    (hfeed : ∀ c, isNumberChar c = false → c.isLower = false →
      m.feed c = (Mode.begin? c).map fun next => (next.1, t :: next.2)) :
    Settles ⟨m, r⟩ r' where
  finish := by
    simp [Cursor.finish?, hfinish, hstep]
  feed c hnumber hlower := by
    rw [Cursor.feed, hfeed c hnumber hlower, Cursor.feed]
    simp only [Mode.feed]
    cases Mode.begin? c with
    | none => rfl
    | some next => simp [hstep]

theorem Cursor.settles_word (cs : List Char) {r r' : Reader} {t : Token}
    (hword : Mode.wordToken? cs = some t) (hstep : r.step t = some r') :
    Settles ⟨.word cs.reverse, r⟩ r' := by
  refine settles_token hstep ?_ ?_
  · simp [Mode.finish?, hword]
  · intro c _ hlower
    simp only [Mode.feed, hlower, List.reverse_reverse, hword]
    cases Mode.begin? c <;> rfl

theorem Cursor.settles_number {cs : List Char} {j : Json} {r r' : Reader}
    (hnumber : numberLiteral? cs = some j) (hstep : r.step (.scalar j) = some r') :
    Settles ⟨.number cs.reverse, r⟩ r' := by
  refine settles_token hstep ?_ ?_
  · simp [Mode.finish?, hnumber]
  · intro c hchar _
    simp only [Mode.feed, hchar, List.reverse_reverse, hnumber]
    cases Mode.begin? c <;> rfl

/-- A punctuation mark behind a value, where the value is taken for read. -/
theorem Cursor.run_settled {s t : Cursor} {r : Reader} (hs : s.Settles r) {c : Char}
    (hnumber : isNumberChar c = false) (hlower : c.isLower = false) {cs : List Char}
    (h : run ⟨.between, r⟩ (c :: cs) = some t) : s.run (c :: cs) = some t := by
  rw [run_cons] at *
  rw [hs.feed c hnumber hlower]
  exact h

/-! ## White space -/

theorem feed_blank {c : Char} (h : c = ' ' ∨ c = '\t' ∨ c = '\n' ∨ c = '\r') (r : Reader) :
    feed ⟨.between, r⟩ c = some ⟨.between, r⟩ := by
  simp [feed, Mode.feed, Mode.begin?, h]

theorem run_blank {ws : List Char} (h : AreBlank ws) (r : Reader) :
    run ⟨.between, r⟩ ws = some ⟨.between, r⟩ := by
  induction ws with
  | nil => rfl
  | cons c ws ih =>
    rw [run_cons, feed_blank (h c (List.mem_cons_self ..))]
    exact ih fun d hd => h d (List.mem_cons_of_mem c hd)

/-- White space ends the last token of a value. -/
theorem Cursor.settles_blank {s : Cursor} {r : Reader} (hs : s.Settles r) {ws : List Char}
    (h : AreBlank ws) : ∃ t, s.run ws = some t ∧ t.Settles r := by
  cases ws with
  | nil => exact ⟨s, rfl, hs⟩
  | cons c ws =>
    have hc := h c (List.mem_cons_self ..)
    have hmark : isNumberChar c = false ∧ c.isLower = false := by
      rcases hc with rfl | rfl | rfl | rfl <;> exact ⟨rfl, rfl⟩
    exact ⟨⟨.between, r⟩, run_settled hs hmark.1 hmark.2 (run_blank h r), settles_between r⟩

/-! ## Values -/

/-- A reader that waits for a value inside these containers; it may also see the end of an array
that is empty so far. -/
def Reader.Expects (r : Reader) (frames : List Frame) : Prop :=
  ∀ t, t ≠ .closeArray → r.step t = stepValue frames t

theorem Reader.expects_value (frames : List Frame) : Expects ⟨.value, frames⟩ frames :=
  fun _ _ => rfl

theorem Reader.expects_firstItem (frames : List Frame) :
    Expects ⟨.firstItem, frames⟩ (.items [] :: frames) := by
  intro t ht
  cases t
  case closeArray => exact absurd rfl ht
  all_goals rfl

theorem Reader.close_readable {frames : List Frame} (h : frames.length < depthLimit)
    (container : Json) : close container frames = ⟨.after container, frames⟩ := by
  rw [close, if_pos h]

/-- A token that opens a container, or closes one. -/
theorem feed_mark {c : Char} {t : Token} {r r' : Reader}
    (hbegin : Mode.begin? c = some (.between, [t])) (hstep : r.step t = some r') :
    feed ⟨.between, r⟩ c = some ⟨.between, r'⟩ := by
  simp [feed, Mode.feed, hbegin, hstep]

mutual

/-- A text is read as its value, in whatever containers it stands. -/
theorem run_text : {n : Nat} → {j : Json} → {cs : List Char} → IsText n j cs →
    (frames : List Frame) → frames.length + n ≤ depthLimit → {r : Reader} → r.Expects frames →
    ∃ s, run ⟨.between, r⟩ cs = some s ∧ s.Settles ⟨.after j, frames⟩
  | _, _, _, .null, _, _, r, hr =>
    ⟨_, rfl, settles_word "null".toList rfl (hr (.scalar .null) (by simp))⟩
  | _, _, _, .true, _, _, r, hr =>
    ⟨_, rfl, settles_word "true".toList rfl (hr (.scalar (.bool .true)) (by simp))⟩
  | _, _, _, .false, _, _, r, hr =>
    ⟨_, rfl, settles_word "false".toList rfl (hr (.scalar (.bool .false)) (by simp))⟩
  | _, j, _, .number h, _, _, r, hr =>
    ⟨_, run_literal h r, settles_number h (hr (.scalar j) (by simp))⟩
  | _, _, _, .string (s := s) h, _, _, r, hr => by
    refine ⟨_, ?_, settles_between _⟩
    rw [run_quoted h, hr (.string s.text) (by simp)]
    rfl
  | _, _, _, .noItems h, frames, hdepth, r, hr => by
    refine ⟨_, ?_, settles_between _⟩
    rw [run_cons, feed_mark rfl (hr .openArray (by simp)), ← close_readable (by omega) (.array [])]
    exact run_append_eq (run_blank h _) rfl
  | _, _, _, .array h, frames, hdepth, r, hr => by
    have hitems := run_items h [] frames (by omega) (expects_firstItem frames)
    refine ⟨_, ?_, settles_between _⟩
    rw [run_cons, feed_mark rfl (hr .openArray (by simp)), ← close_readable (by omega)]
    exact hitems
  | _, _, _, .noMembers h, frames, hdepth, r, hr => by
    refine ⟨_, ?_, settles_between _⟩
    rw [run_cons, feed_mark rfl (hr .openObject (by simp)),
      ← close_readable (by omega) (.object [])]
    exact run_append_eq (run_blank h _) rfl
  | _, _, _, .object h, frames, hdepth, r, hr => by
    have hmembers := run_members h [] true frames (by omega)
    refine ⟨_, ?_, settles_between _⟩
    rw [run_cons, feed_mark rfl (hr .openObject (by simp)), ← close_readable (by omega)]
    exact hmembers

theorem run_spaced : {n : Nat} → {j : Json} → {cs : List Char} → IsSpaced n j cs →
    (frames : List Frame) → frames.length + n ≤ depthLimit → {r : Reader} → r.Expects frames →
    ∃ s, run ⟨.between, r⟩ cs = some s ∧ s.Settles ⟨.after j, frames⟩
  | _, _, _, .intro hbefore h hafter, frames, hdepth, r, hr => by
    obtain ⟨s, hrun, hs⟩ := run_text h frames hdepth hr
    obtain ⟨t, hblank, ht⟩ := settles_blank hs hafter
    exact ⟨t, run_append_eq (run_blank hbefore r) (run_append_eq hrun hblank), ht⟩

/-- Items up to the end of their array. -/
theorem run_items : {n : Nat} → {items : List Json} → {cs : List Char} → AreItems n items cs →
    (before : List Json) → (frames : List Frame) → frames.length + 1 + n ≤ depthLimit →
    {r : Reader} → r.Expects (.items before :: frames) →
    run ⟨.between, r⟩ (cs ++ [']']) =
      some ⟨.between, close (.array (before.reverse ++ items)) frames⟩
  | _, [j], _, .single h, before, frames, hdepth, r, hr => by
    obtain ⟨s, hrun, hs⟩ := run_spaced h (.items before :: frames)
      (by rw [List.length_cons]; omega) hr
    have hclose : run ⟨.between, ⟨.after j, .items before :: frames⟩⟩ [']'] =
        some ⟨.between, close (.array (j :: before).reverse) frames⟩ := rfl
    rw [List.reverse_cons] at hclose
    exact run_append_eq hrun (run_settled hs rfl rfl hclose)
  | _, j :: _, _, .cons h hrest, before, frames, hdepth, r, hr => by
    obtain ⟨s, hrun, hs⟩ := run_spaced h (.items before :: frames)
      (by rw [List.length_cons]; omega) hr
    have hcomma : feed ⟨.between, ⟨.after j, .items before :: frames⟩⟩ ',' =
        some ⟨.between, ⟨.value, .items (j :: before) :: frames⟩⟩ := rfl
    have hmore := run_items hrest (j :: before) frames hdepth (expects_value _)
    rw [List.reverse_cons, List.append_assoc, List.singleton_append] at hmore
    rw [List.append_assoc, List.cons_append]
    refine run_append_eq hrun (run_settled hs rfl rfl ?_)
    rw [run_cons, hcomma]
    exact hmore

/-- A member is read up to its value. -/
theorem run_member : {n : Nat} → {m : Option String × Json} → {cs : List Char} → IsMember n m cs →
    (before : List (Option String × Json)) → (first : Bool) → (frames : List Frame) →
    frames.length + 1 + n ≤ depthLimit →
    ∃ s, run ⟨.between, ⟨.name before first, frames⟩⟩ cs = some s ∧
      s.Settles ⟨.after m.2, .members before m.1 :: frames⟩
  | _, _, _, .intro (s := s) hbefore hname hafter h, before, first, frames, hdepth => by
    obtain ⟨t, hrun, ht⟩ := run_spaced h (.members before s.text :: frames)
      (by rw [List.length_cons]; omega) (expects_value _)
    have hstep : step ⟨.name before first, frames⟩ (.string s.text) =
        some ⟨.colon before s.text, frames⟩ := by
      cases first <;> rfl
    have hquoted := run_quoted hname ⟨.name before first, frames⟩
    rw [hstep, Option.map_some] at hquoted
    have hcolon : feed ⟨.between, ⟨.colon before s.text, frames⟩⟩ ':' =
        some ⟨.between, ⟨.value, .members before s.text :: frames⟩⟩ := rfl
    refine ⟨t, run_append_eq (run_blank hbefore _) (run_append_eq hquoted
      (run_append_eq (run_blank hafter _) ?_)), ht⟩
    rw [run_cons, hcolon]
    exact hrun

/-- Members up to the end of their object. -/
theorem run_members : {n : Nat} → {members : List (Option String × Json)} → {cs : List Char} →
    AreMembers n members cs → (before : List (Option String × Json)) → (first : Bool) →
    (frames : List Frame) → frames.length + 1 + n ≤ depthLimit →
    run ⟨.between, ⟨.name before first, frames⟩⟩ (cs ++ ['\x7d']) =
      some ⟨.between, close (ofMembers (before.reverse ++ members)) frames⟩
  | _, [m], _, .single h, before, first, frames, hdepth => by
    obtain ⟨s, hrun, hs⟩ := run_member h before first frames hdepth
    have hclose : run ⟨.between, ⟨.after m.2, .members before m.1 :: frames⟩⟩ ['\x7d'] =
        some ⟨.between, close (ofMembers (m :: before).reverse) frames⟩ := rfl
    rw [List.reverse_cons] at hclose
    exact run_append_eq hrun (run_settled hs rfl rfl hclose)
  | _, m :: _, _, .cons h hrest, before, first, frames, hdepth => by
    obtain ⟨s, hrun, hs⟩ := run_member h before first frames hdepth
    have hcomma : feed ⟨.between, ⟨.after m.2, .members before m.1 :: frames⟩⟩ ',' =
        some ⟨.between, ⟨.name (m :: before) false, frames⟩⟩ := rfl
    have hmore := run_members hrest (m :: before) false frames hdepth
    rw [List.reverse_cons, List.append_assoc, List.singleton_append] at hmore
    rw [List.append_assoc, List.cons_append]
    refine run_append_eq hrun (run_settled hs rfl rfl ?_)
    rw [run_cons, hcomma]
    exact hmore

end

/-- A document is read as the value that it says. -/
theorem parse?_of_isDocument {text : String} {j : Json} (h : IsDocument text j) :
    parse? text = some j := by
  obtain ⟨s, hrun, hs⟩ := run_spaced h [] (by simp) (expects_value [])
  have hstart : Cursor.start = ⟨.between, ⟨.value, []⟩⟩ := rfl
  rw [parse?, hstart, hrun]
  exact hs.finish

end BoundSql.Json
