import BoundSql.Proofs.Layout.Contents
import BoundSql.Proofs.Reading.Clause
import BoundSql.Proofs.Reload.Basic

/-!
# Reading column definitions

A definition says nothing of what its type has no use for, and nothing that is blank. A type is
read up to its last letter, as some types begin like others; its arguments and the modifiers stand
in a fixed order, and each modifier begins with words of its own.
-/
namespace BoundSql

open Text Layout

/-! ## Runs and lists -/

namespace Text

/-- The characters up to the first one without a property, and what is left behind them. -/
def span (p : Char → Bool) : List Mark → List Char × List Mark
  | .char c :: ms => if p c then (c :: (span p ms).1, (span p ms).2) else ([], .char c :: ms)
  | ms => ([], ms)

theorem span_marks {p : Char → Bool} {s : String} (hs : ∀ c ∈ s.toList, p c = true)
    {rest : List Mark} (hrest : span p rest = ([], rest)) :
    span p (marks s ++ rest) = (s.toList, rest) := by
  unfold marks
  generalize s.toList = cs at hs ⊢
  induction cs with
  | nil => exact hrest
  | cons c cs ih =>
    have hcs := ih fun d hd => hs d (List.mem_cons_of_mem c hd)
    rw [List.map_cons, List.cons_append, span, hcs, if_pos (hs c (List.mem_cons_self ..))]

/-- A run ends where a text begins with another character. -/
theorem Ends.span_eq {texts : List String} {ms : List Mark} (h : Ends texts ms) (p : Char → Bool)
    (hs : (texts.all fun t => t.toList.head?.any fun c => !p c) = true) : span p ms = ([], ms) := by
  rcases h with rfl | ⟨t, ht, rest, rfl⟩
  · rfl
  · have hhead := List.all_eq_true.1 hs t ht
    unfold marks
    cases hchars : t.toList with
    | nil => simp [hchars] at hhead
    | cons c cs =>
      have hc : p c = false := by simpa [hchars] using hhead
      rw [List.map_cons, List.cons_append, span, hc, if_neg Bool.false_ne_true]

section
variable {α : Type}

/-- One item or more; there are no more items than marks. -/
def manyAll (separator : String) (p : MarkReader α) : MarkReader (List α) := fun ms =>
  many separator p (ms.length + 1) ms

theorem length_le_marks_intercalate {separator : String} (h : separator ≠ "")
    (parts : List Layout) :
    parts.length ≤ (Layout.marks (List.intercalate [.words separator] parts)).length + 1 := by
  have hpos : 0 < (marks separator).length := by
    rw [marks, List.length_map, List.length_pos_iff]
    exact fun hs => h (String.toList_eq_nil_iff.1 hs)
  induction parts with
  | nil => exact Nat.zero_le _
  | cons l rest ih =>
    cases rest with
    | nil => simp
    | cons m rest =>
      rw [List.intercalate_cons_cons, Layout.marks_append, Layout.marks_append,
        List.length_append, List.length_append, List.length_cons]
      have hseparator : (Layout.marks [.words separator]).length = (marks separator).length := by
        simp [Piece.marks]
      omega

theorem takes_manyAll (separator : String) {β : Type} {texts : List String} {p : MarkReader α}
    {f : β → α} {g : β → Layout} (hseparator : excludes texts separator = true) {bs : List β}
    (hitems : ∀ b ∈ bs, Takes (separator :: texts) p (g b) (f b)) (hne : bs ≠ []) :
    Takes texts (manyAll separator p) (List.intercalate [.words separator] (bs.map g))
      (bs.map f) := by
  intro rest hrest
  refine many_intercalate separator hseparator hitems hne ?_ rest hrest
  have hseparator' : separator ≠ "" := by
    simp only [excludes, Bool.and_eq_true, bne_iff_ne] at hseparator
    exact hseparator.1
  have hlength := length_le_marks_intercalate hseparator' (bs.map g)
  rw [List.length_map] at hlength
  rw [List.length_append]
  omega

/-- A list up to its closing parenthesis. -/
theorem before_manyAll {p : MarkReader α} {g : α → Layout}
    (hitems : ∀ a rest, p ((g a).marks ++ rest) = some (a, rest)) {as : List α} (hne : as ≠ [])
    (rest : List Mark) :
    before (manyAll "," p) ")"
        (Layout.marks (List.intercalate [.words ","] (as.map g)) ++ (marks ")" ++ rest)) =
      some (as, rest) := by
  have hseparator : excludes [")"] "," = true := by decide
  have hread := takes_manyAll "," (f := id) hseparator (fun a _ ms _ => hitems a ms) hne _
    (ends_marks (List.mem_singleton_self _) rest)
  rw [List.map_id] at hread
  exact before_eq hread

end

/-- A name alone. -/
def readName : MarkReader String
  | .name n :: ms => some (n, ms)
  | _ => none

/-- A literal alone. -/
def readLiteral : MarkReader String
  | .literal s :: ms => some (s, ms)
  | _ => none

/-- A number without a sign. -/
def readNumber : MarkReader UInt32 := fun ms =>
  let (ds, ms) := span Char.isDigit ms
  some (UInt32.ofNat (Number.ofDigits ds), ms)

theorem readNumber_marks (n : UInt32) {rest : List Mark} (h : span Char.isDigit rest = ([], rest)) :
    readNumber (marks (Column.uint32Text n) ++ rest) = some (n, rest) := by
  have hdigits : (Column.uint32Text n).toList = Number.digits n.toNat := String.toList_ofList
  have hread := span_marks (s := Column.uint32Text n) (hdigits ▸ Number.isDigit_digits n.toNat) h
  simp only [readNumber, hread, hdigits, Number.ofDigits_digits, UInt32.ofNat_toNat]

end Text

/-! ## Types -/

namespace ColumnType

/-- The arguments of a type and what they are if nothing is said: the length of a text, or the
precision and the scale of a number with a fraction. -/
def fallbacks : ColumnType → List UInt32
  | .string => [255]
  | .float | .double | .decimal => [8, 2]
  | _ => []

/-- The first type that is spelled alike: a boolean begins as a small integer. -/
def spelled : ColumnType → ColumnType
  | .boolean => .tinyint
  | t => t

def ofKeyword? (word : List Char) : Option ColumnType :=
  all.find? fun t => t.keyword.toList == word

theorem ofKeyword?_keyword (t : ColumnType) : ofKeyword? t.keyword.toList = some t.spelled := by
  cases t <;> decide

theorem isUpper_keyword (t : ColumnType) : ∀ c ∈ t.keyword.toList, c.isUpper = true := by
  have hupper : (t.keyword.toList.all Char.isUpper) = true := by
    cases t <;> decide
  exact List.all_eq_true.1 hupper

end ColumnType

namespace Column

/-- The arguments of the type, each as it is written. What is given beyond them is not. -/
def shownArgs (c : Column) : List UInt32 := c.type.fallbacks.mapIdx c.arg

/-- A type with its arguments and members. -/
abbrev TypeParts := ColumnType × List UInt32 × List String

/-- Reads what stands behind the keyword of a type. -/
def readArguments : ColumnType → MarkReader TypeParts
  | .tinyint => optional "(1)" (fun ms => some ((.boolean, [], []), ms)) (.tinyint, [], [])
  | .string => fun ms => do
    let (length, ms) ← before readNumber ")" (← skip? "(" ms)
    return ((.string, [length], []), ms)
  | .float => numeric .float
  | .double => numeric .double
  | .decimal => numeric .decimal
  | .set => membered .set
  | .enumeration => membered .enumeration
  | t => fun ms => some ((t, [], []), ms)
where
  numeric (t : ColumnType) : MarkReader TypeParts := fun ms => do
    let (precision, ms) ← before readNumber "," (← skip? "(" ms)
    let (scale, ms) ← before readNumber ")" ms
    return ((t, [precision, scale], []), ms)
  membered (t : ColumnType) : MarkReader TypeParts := fun ms => do
    let (members, ms) ← before (manyAll "," readLiteral) ")" (← skip? "(" ms)
    return ((t, [], members), ms)

/-- Reads a type up to its last letter, and then its arguments. -/
def readType : MarkReader TypeParts := fun ms => do
  let (word, ms) := span Char.isUpper ms
  readArguments (← ColumnType.ofKeyword? word) ms

/-- The texts that can stand behind a column. -/
def stops : List String := [",", " , ", ")"]

/-- The texts that can stand behind a type. -/
def typeStops : List String :=
  [" UNSIGNED", " CHARACTER SET ", " COLLATE ", " NOT NULL", " DEFAULT ", " AUTO_INCREMENT",
    " COMMENT "] ++ stops

/-- The arguments and members as they are laid out behind the keyword. -/
def argumentLayout (c : Column) : Layout := c.typeLayout.tail

theorem ends_argumentLayout (c : Column) {rest : List Mark} (h : Ends typeStops rest) :
    Ends ("(" :: typeStops) (c.argumentLayout.marks ++ rest) := by
  have hopening (l : Layout) :
      Ends ("(" :: typeStops) (Layout.marks (.words "(" :: l) ++ rest) := by
    rw [Layout.marks_cons, List.append_assoc]
    exact ends_marks (List.mem_cons_self ..) _
  unfold argumentLayout typeLayout
  cases c.type
  case string | boolean | float | double | decimal | set | enumeration => exact hopening _
  all_goals exact h.mono (List.subset_cons_self ..)

section
variable (rest : List Mark)

theorem before_number (after : String) (n : UInt32)
    (h : (after.toList.head?.any fun c => !c.isDigit) = true) :
    before readNumber after (Text.marks (uint32Text n) ++ (Text.marks after ++ rest)) =
      some (n, rest) := by
  have hafter : Ends [after] (Text.marks after ++ rest) := ends_marks (List.mem_singleton_self _) _
  exact before_eq (readNumber_marks n (hafter.span_eq Char.isDigit (by simpa using h)))

theorem numeric_marks (t : ColumnType) (precision scale : UInt32) :
    readArguments.numeric t (Layout.marks [.words "(", .words (uint32Text precision), .words ",",
        .words (uint32Text scale), .words ")"] ++ rest) =
      some ((t, [precision, scale], []), rest) := by
  have hscale := before_number rest ")" scale (by decide)
  have hprecision := before_number (Text.marks (uint32Text scale) ++ (Text.marks ")" ++ rest))
    "," precision (by decide)
  simp only [Layout.marks_cons, Layout.marks_nil, Piece.marks.eq_1, List.append_assoc,
    List.nil_append]
  simp only [readArguments.numeric, skip?_marks, hprecision, hscale, Option.bind_eq_bind,
    Option.bind_some]
  rfl

theorem membered_marks (t : ColumnType) {members : List String} (h : members ≠ []) :
    readArguments.membered t (Layout.marks (.words "(" ::
        (List.intercalate [.words ","] (members.map fun m => [.literal m]) ++ [.words ")"])) ++
          rest) = some ((t, [], members), rest) := by
  have hmembers := before_manyAll (p := readLiteral) (g := fun m => [.literal m])
    (fun _ _ => rfl) h rest
  simp only [Layout.marks_cons, Layout.marks_append, Layout.marks_nil, Piece.marks.eq_1,
    List.append_assoc, List.nil_append]
  simp only [readArguments.membered, skip?_marks, hmembers, Option.bind_eq_bind,
    Option.bind_some]
  rfl

end

/-- A type with members has one. -/
theorem members_ne_nil {c : Column} (h : c.check = .ok ()) (ht : c.type.hasMembers = true) :
    c.members ≠ [] := by
  rintro hnone
  rw [check, ht, hnone] at h
  split at h <;> cases h

theorem readArguments_layout {c : Column} (hcheck : c.check = .ok ()) {rest : List Mark}
    (h : Ends typeStops rest) :
    readArguments c.type.spelled (c.argumentLayout.marks ++ rest) =
      some ((c.type, c.shownArgs, c.shownMembers), rest) := by
  have hmembers := members_ne_nil hcheck
  unfold argumentLayout typeLayout shownArgs shownMembers
  cases htype : c.type
  case string =>
    have hlength := before_number rest ")" (c.arg 0 255) (by decide)
    simp only [List.tail_cons, Layout.marks_cons, Layout.marks_nil, Piece.marks.eq_1,
      List.append_assoc, List.nil_append]
    simp only [ColumnType.spelled, readArguments, skip?_marks, hlength, Option.bind_eq_bind,
      Option.bind_some]
    rfl
  case float | double | decimal => exact numeric_marks rest _ _ _
  case set | enumeration => exact membered_marks rest _ (hmembers (by rw [htype]; rfl))
  case boolean =>
    have hread : readArguments .tinyint (Text.marks "(1)" ++ rest) =
        some ((.boolean, [], []), rest) := by
      rw [readArguments]
      exact optional_marks rfl
    exact hread
  case tinyint => exact optional_missing (h.skip?_eq_none (by decide))
  all_goals rfl

theorem readType_layout {c : Column} (hcheck : c.check = .ok ()) :
    Takes typeStops readType c.typeLayout (c.type, c.shownArgs, c.shownMembers) := by
  intro rest hrest
  have hlayout : c.typeLayout.marks ++ rest =
      Text.marks c.type.keyword ++ (c.argumentLayout.marks ++ rest) := List.append_assoc ..
  have hword := span_marks c.type.isUpper_keyword
    ((c.ends_argumentLayout hrest).span_eq Char.isUpper (by decide))
  simp only [readType, hlayout, hword, ColumnType.ofKeyword?_keyword, Option.bind_eq_bind,
    Option.bind_some, readArguments_layout hcheck hrest]

/-! ## Modifiers -/

/-- A modifier behind a space, unless it is missing. -/
def spaced (modifier : Option Layout) : Layout := modifier.elim [] fun l => .words " " :: l

/-- A definition with its modifiers one by one. -/
theorem layout_eq (c : Column) :
    c.layout = .name c.name :: .words " " :: (c.typeLayout ++
      (spaced (flagLayout? "UNSIGNED" c.unsigned) ++
        (spaced (literalLayout? "CHARACTER SET" c.charset) ++
          (spaced (literalLayout? "COLLATE" c.collation) ++
            (spaced (flagLayout? "NOT NULL" c.notNull) ++
              (spaced (c.default.bind ColumnDefault.layout?) ++
                (spaced (flagLayout? "AUTO_INCREMENT" c.autoIncrement) ++
                  spaced (literalLayout? "COMMENT" c.comment)))))))) := by
  rw [layout, intercalate_cons, List.flatMap_cons, flatMap_modifierLayouts]
  simp only [List.flatMap_cons, List.flatMap_nil, List.append_nil, List.cons_append,
    List.nil_append]
  rfl

/-- Reads a modifier that is only a keyword. -/
def readFlag (keyword : String) : MarkReader Bool :=
  optional (" " ++ keyword) (fun ms => some (true, ms)) false

/-- Reads a modifier with a literal. -/
def readText (keyword : String) : MarkReader (Option String) :=
  optional (" " ++ keyword ++ " ") (fun ms => (readLiteral ms).map fun (s, ms) => (some s, ms)) none

theorem marks_flag (keyword : String) :
    Layout.marks (spaced (flagLayout? keyword true)) = Text.marks (" " ++ keyword) := by
  simp [spaced, flagLayout?, Piece.marks, marks_append_text]

theorem marks_text (keyword : String) {t : String} {text : Option String}
    (htext : shownText text = some t) (rest : List Mark) :
    Layout.marks (spaced (literalLayout? keyword text)) ++ rest =
      Text.marks (" " ++ keyword ++ " ") ++ (.literal t :: rest) := by
  have hlayout : literalLayout? keyword text = some [.words keyword, .words " ", .literal t] :=
    congrArg (Option.map _) htext
  rw [hlayout]
  simp [spaced, Piece.marks, marks_append_text]

section
variable {texts : List String} {rest : List Mark} (h : Ends texts rest) (keyword : String)
include h

theorem ends_flag (flag : Bool) :
    Ends ((" " ++ keyword) :: texts)
      (Layout.marks (spaced (flagLayout? keyword flag)) ++ rest) := by
  cases flag with
  | false => exact h.mono (List.subset_cons_self ..)
  | true =>
    rw [marks_flag]
    exact ends_marks (List.mem_cons_self ..) rest

theorem readFlag_marks (flag : Bool) (hkeyword : excludes texts (" " ++ keyword) = true) :
    readFlag keyword (Layout.marks (spaced (flagLayout? keyword flag)) ++ rest) =
      some (flag, rest) := by
  cases flag with
  | false => exact optional_missing (h.skip?_eq_none hkeyword)
  | true =>
    rw [marks_flag]
    exact optional_marks rfl

theorem ends_text (text : Option String) :
    Ends ((" " ++ keyword ++ " ") :: texts)
      (Layout.marks (spaced (literalLayout? keyword text)) ++ rest) := by
  cases htext : shownText text with
  | none =>
    have hlayout : literalLayout? keyword text = none := congrArg (Option.map _) htext
    rw [hlayout]
    exact h.mono (List.subset_cons_self ..)
  | some t =>
    rw [marks_text keyword htext]
    exact ends_marks (List.mem_cons_self ..) _

theorem readText_marks (text : Option String)
    (hkeyword : excludes texts (" " ++ keyword ++ " ") = true) :
    readText keyword (Layout.marks (spaced (literalLayout? keyword text)) ++ rest) =
      some (shownText text, rest) := by
  cases htext : shownText text with
  | none =>
    have hlayout : literalLayout? keyword text = none := congrArg (Option.map _) htext
    rw [hlayout]
    exact optional_missing (h.skip?_eq_none hkeyword)
  | some t =>
    rw [marks_text keyword htext]
    exact optional_marks rfl

end

end Column

/-! ## Defaults -/

/-- The integer that characters stand for, with a sign in front or without. -/
def Number.ofSignedDigits : List Char → Int
  | '-' :: ds => -(Number.ofDigits ds : Int)
  | ds => Number.ofDigits ds

theorem Number.ofSignedDigits_intText (n : Int) :
    Number.ofSignedDigits (Number.intText n).toList = n := by
  rw [Number.toList_intText]
  by_cases hn : n < 0
  · rw [if_pos hn, List.singleton_append, Number.ofSignedDigits, Number.ofDigits_digits]
    omega
  · rw [if_neg hn, List.nil_append]
    have hdigits := Number.isDigit_digits n.natAbs
    have hvalue := Number.ofDigits_digits n.natAbs
    have hne : ∀ ds, Number.digits n.natAbs ≠ '-' :: ds := by
      intro ds h
      have hminus := hdigits '-' (h ▸ List.mem_cons_self ..)
      cases hminus
    rw [Number.ofSignedDigits, hvalue]
    · omega
    · exact hne

namespace ColumnDefault

/-- A default as it is written: a text is trimmed, and a blank one is left out. -/
def normal? : ColumnDefault → Option ColumnDefault
  | .text t => if trim t = "" then none else some (.text (trim t))
  | v => some v

/-- The literal or the number behind the keyword. -/
def readValue : MarkReader (Option ColumnDefault)
  | .literal s :: ms => some (some (.text s), ms)
  | ms =>
    let (ds, ms) := span (fun c => c.isDigit || c == '-') ms
    some (some (.int (Int64.ofInt (Number.ofSignedDigits ds))), ms)

def read : MarkReader (Option ColumnDefault) := optional " DEFAULT " readValue none

/-- The texts that can stand behind a default. -/
def stops : List String := [" AUTO_INCREMENT", " COMMENT "] ++ Column.stops

theorem readValue_int (n : Int64) {rest : List Mark} (h : Ends stops rest) :
    readValue (Text.marks (Value.int64Text n) ++ rest) = some (some (.int n), rest) := by
  have htext : (Value.int64Text n).toList =
      (if n.toInt < 0 then ['-'] else []) ++ Number.digits n.toInt.natAbs :=
    Number.toList_intText n.toInt
  have hchars : ∀ c ∈ (Value.int64Text n).toList, (c.isDigit || c == '-') = true := by
    intro c hc
    rw [htext, List.mem_append] at hc
    rcases hc with hc | hc
    · split at hc
      · obtain rfl := List.mem_singleton.1 hc
        rfl
      · cases hc
    · rw [Number.isDigit_digits _ c hc, Bool.true_or]
  have hspan := span_marks hchars (h.span_eq _ (by decide))
  have hvalue : Number.ofSignedDigits (Value.int64Text n).toList = n.toInt :=
    Number.ofSignedDigits_intText n.toInt
  -- The first mark is a character of the number, so it is no literal.
  have hliteral : ∀ s ms, Text.marks (Value.int64Text n) ++ rest ≠ .literal s :: ms := by
    intro s ms hms
    cases hfirst : (Value.int64Text n).toList with
    | nil =>
      rw [htext] at hfirst
      exact Number.digits_ne_nil _ (List.append_eq_nil_iff.1 hfirst).2
    | cons c cs =>
      rw [Text.marks, hfirst] at hms
      cases hms
  rw [readValue]
  · simp only [hspan, hvalue, Int64.ofInt_toInt]
  · exact hliteral

theorem ends_default (v : Option ColumnDefault) {rest : List Mark} (h : Ends stops rest) :
    Ends (" DEFAULT " :: stops) (Layout.marks (Column.spaced (v.bind layout?)) ++ rest) := by
  have hdefault : ∀ p : Piece, Ends (" DEFAULT " :: stops)
      (Layout.marks (Column.spaced (some [.words "DEFAULT ", p])) ++ rest) := fun p =>
    ends_marks (List.mem_cons_self ..) (Layout.marks [p] ++ rest)
  have hmissing : Ends (" DEFAULT " :: stops) (Layout.marks (Column.spaced none) ++ rest) :=
    h.mono (List.subset_cons_self ..)
  cases v with
  | none => exact hmissing
  | some v =>
    rw [Option.bind_some]
    cases v with
    | int n | float x => exact hdefault _
    | text t | raw r =>
      rw [layout?]
      split
      · exact hmissing
      · exact hdefault _

theorem read_marks {v : Option ColumnDefault} (hraw : ∀ r, v ≠ some (.raw r))
    (hfloat : ∀ x, v ≠ some (.float x)) {rest : List Mark} (h : Ends stops rest) :
    read (Layout.marks (Column.spaced (v.bind layout?)) ++ rest) = some (v.bind normal?, rest) := by
  have hmissing : read rest = some (none, rest) := optional_missing (h.skip?_eq_none (by decide))
  have hdefault : ∀ (p : Piece) (v : ColumnDefault),
      readValue (p.marks ++ rest) = some (some v, rest) →
        read (Layout.marks (Column.spaced (some [.words "DEFAULT ", p])) ++ rest) =
          some (some v, rest) := by
    intro p v hread
    have hmarks : Layout.marks (Column.spaced (some [.words "DEFAULT ", p])) ++ rest =
        Text.marks " DEFAULT " ++ (p.marks ++ rest) := by
      have htext : Text.marks " DEFAULT " = Text.marks " " ++ Text.marks "DEFAULT " := rfl
      rw [htext]
      simp [Column.spaced, Piece.marks.eq_1]
    rw [hmarks]
    exact optional_marks hread
  cases v with
  | none => exact hmissing
  | some v =>
    rw [Option.bind_some, Option.bind_some]
    cases v with
    | int n => exact hdefault _ _ (readValue_int n h)
    | float x => exact absurd rfl (hfloat x)
    | raw r => exact absurd rfl (hraw r)
    | text t =>
      rw [layout?, normal?]
      split
      · exact hmissing
      · exact hdefault _ _ rfl

end ColumnDefault

/-! ## Columns -/

namespace Column

/-- A column as its definition says it: with the arguments and members that its type takes, each
missing argument and each zero replaced, and without what is blank. -/
def normal (c : Column) : Column :=
  { c with
    args := c.shownArgs
    members := c.shownMembers
    default := c.default.bind ColumnDefault.normal?
    charset := shownText c.charset
    collation := shownText c.collation
    comment := shownText c.comment }

/-- Reads a column; whether it belongs to the primary key is said elsewhere. -/
def read : MarkReader Column
  | .name name :: ms => do
    let ((type, args, members), ms) ← readType (← skip? " " ms)
    let (unsigned, ms) ← readFlag "UNSIGNED" ms
    let (charset, ms) ← readText "CHARACTER SET" ms
    let (collation, ms) ← readText "COLLATE" ms
    let (notNull, ms) ← readFlag "NOT NULL" ms
    let (default, ms) ← ColumnDefault.read ms
    let (autoIncrement, ms) ← readFlag "AUTO_INCREMENT" ms
    let (comment, ms) ← readText "COMMENT" ms
    return (⟨name, type, args, members, unsigned, notNull, false, autoIncrement, default, charset,
      collation, comment⟩, ms)
  | _ => none

/-- A column is read back from its definition in its normal form. -/
theorem takes_layout {c : Column} (hcheck : c.check = .ok ()) (hraws : c.raws = [])
    (hfloat : c.hasFloat = false) :
    Takes stops read c.layout { c.normal with primaryKey := false } := by
  intro rest h
  have hdefault : (∀ r, c.default ≠ some (.raw r)) ∧ ∀ x, c.default ≠ some (.float x) := by
    constructor
    · intro r hr
      simp [raws, hr] at hraws
    · intro x hx
      simp [hasFloat, hx, ColumnDefault.isFloat] at hfloat
  -- What stands behind a modifier is known from the last modifier to the first.
  have hcomment := ends_text h "COMMENT" c.comment
  have hauto := ends_flag hcomment "AUTO_INCREMENT" c.autoIncrement
  have hdefaults := ColumnDefault.ends_default c.default hauto
  have hnotNull := ends_flag hdefaults "NOT NULL" c.notNull
  have hcollation := ends_text hnotNull "COLLATE" c.collation
  have hcharset := ends_text hcollation "CHARACTER SET" c.charset
  have hunsigned := ends_flag hcharset "UNSIGNED" c.unsigned
  have hreadComment := readText_marks h "COMMENT" c.comment (by decide)
  have hreadAuto := readFlag_marks hcomment "AUTO_INCREMENT" c.autoIncrement (by decide)
  have hreadDefault := ColumnDefault.read_marks hdefault.1 hdefault.2 hauto
  have hreadNotNull := readFlag_marks hdefaults "NOT NULL" c.notNull (by decide)
  have hreadCollation := readText_marks hnotNull "COLLATE" c.collation (by decide)
  have hreadCharset := readText_marks hcollation "CHARACTER SET" c.charset (by decide)
  have hreadUnsigned := readFlag_marks hcharset "UNSIGNED" c.unsigned (by decide)
  have hreadType := readType_layout hcheck _ hunsigned
  rw [layout_eq]
  simp only [Layout.marks_cons, Layout.marks_append, List.append_assoc, Piece.marks.eq_1]
  have hname : (Piece.name c.name).marks = [.name c.name] := rfl
  rw [hname, List.singleton_append]
  simp only [read, skip?_marks, hreadType, hreadUnsigned, hreadCharset, hreadCollation,
    hreadNotNull, hreadDefault, hreadAuto, hreadComment, Option.bind_eq_bind, Option.bind_some]
  rfl

/-! ## Normal forms -/

theorem arg_pos (c : Column) (index : Nat) {fallback : UInt32} (h : 0 < fallback) :
    0 < c.arg index fallback := by
  rw [arg]
  cases harg : (c.args[index]?).filter (0 < ·) with
  | none => exact h
  | some n => simpa using (Option.filter_eq_some_iff.1 harg).2

/-- An argument that is written is the same in the normal form. -/
theorem arg_normal (c : Column) (index : Nat) {fallback : UInt32}
    (h : c.type.fallbacks[index]? = some fallback) :
    c.normal.arg index fallback = c.arg index fallback := by
  have hpos : ∀ n ∈ c.type.fallbacks, 0 < n := by
    have hall : (c.type.fallbacks.all fun n => decide (0 < n)) = true := by
      cases c.type <;> decide
    exact fun n hn => of_decide_eq_true (List.all_eq_true.1 hall n hn)
  have hargs : c.normal.args[index]? = some (c.arg index fallback) := by
    rw [normal, shownArgs, List.getElem?_mapIdx, h]
    rfl
  have hwritten := c.arg_pos index (hpos fallback (List.mem_of_getElem? h))
  rw [arg, hargs, Option.filter_some, if_pos (by simpa using hwritten)]
  rfl

theorem typeLayout_normal (c : Column) : c.normal.typeLayout = c.typeLayout := by
  have htype : c.normal.type = c.type := rfl
  have hmembers : c.type.hasMembers = true → c.normal.members = c.members := fun h => if_pos h
  have hlength : c.type.fallbacks[0]? = some 255 → c.normal.arg 0 255 = c.arg 0 255 :=
    c.arg_normal 0
  have hprecision : c.type.fallbacks[0]? = some 8 → c.normal.arg 0 8 = c.arg 0 8 := c.arg_normal 0
  have hscale : c.type.fallbacks[1]? = some 2 → c.normal.arg 1 2 = c.arg 1 2 := c.arg_normal 1
  unfold typeLayout
  rw [htype]
  cases hcase : c.type <;> rw [hcase] at hlength hprecision hscale hmembers
  case string => simp only [hlength rfl]
  case float | double | decimal => simp only [hprecision rfl, hscale rfl]
  case set | enumeration => simp only [hmembers rfl]

theorem literalLayout?_shownText (keyword : String) (text : Option String) :
    literalLayout? keyword (shownText text) = literalLayout? keyword text := by
  rw [literalLayout?, literalLayout?, shownText, Option.filter_filter]
  simp only [Bool.and_self]

end Column

namespace Text

/-- What begins without white space stays as it is. -/
theorem trimStart_eq_self {cs : List Char} (h : ∀ c ∈ cs.head?, isSpace c = false) :
    trimStart cs = cs := by
  cases cs with
  | nil => rfl
  | cons c cs => exact List.dropWhile_cons_of_neg (by simp [h c rfl])

theorem head?_trimStart (cs : List Char) : ∀ c ∈ (trimStart cs).head?, isSpace c = false := by
  intro c hc
  obtain ⟨rest, hrest⟩ := List.head?_eq_some_iff.1 hc
  exact trimStart_head hrest

/-- A trimmed text has no white space at its ends. -/
theorem trim_trim (s : String) : trim (trim s) = trim s := by
  have hagain (cs : List Char) : trimStart (trimStart cs) = trimStart cs :=
    trimStart_eq_self (head?_trimStart cs)
  -- What is trimmed at its end still begins as it did.
  have hstart : trimStart (trimStart (trimStart s.toList).reverse).reverse =
      (trimStart (trimStart s.toList).reverse).reverse := by
    have hprefix : (trimStart (trimStart s.toList).reverse).reverse <+: trimStart s.toList := by
      rw [← List.reverse_suffix, List.reverse_reverse]
      exact List.dropWhile_suffix isSpace
    refine trimStart_eq_self fun c hc => head?_trimStart s.toList c ?_
    obtain ⟨kept, hkept⟩ := List.head?_eq_some_iff.1 hc
    obtain ⟨dropped, hdropped⟩ := hprefix
    rw [← hdropped, hkept]
    exact Option.mem_some_self c
  have htrimmed : (trim s).toList = (trimStart (trimStart s.toList).reverse).reverse :=
    String.toList_ofList
  rw [trim, htrimmed, hstart, List.reverse_reverse, hagain]
  rfl

end Text

theorem ColumnDefault.layout?_normal? (v : ColumnDefault) :
    v.normal?.bind ColumnDefault.layout? = v.layout? := by
  cases v with
  | int n | float x | raw r => rfl
  | text t =>
    rw [normal?, layout?]
    split
    · rfl
    · rename_i h
      rw [Option.bind_some, layout?, trim_trim, if_neg h]

/-- A column has the definition of its normal form. -/
theorem Column.layout_normal (c : Column) : c.normal.layout = c.layout := by
  have hdefault : (c.default.bind ColumnDefault.normal?).bind ColumnDefault.layout? =
      c.default.bind ColumnDefault.layout? := by
    rw [Option.bind_assoc]
    exact congrArg c.default.bind (funext ColumnDefault.layout?_normal?)
  have htype := c.typeLayout_normal
  rw [layout_eq, layout_eq, htype]
  simp only [normal, hdefault, literalLayout?_shownText]

end BoundSql
