import BoundSql.Select.Clause

/-!
# Layouts

A layout is a statement before a dialect writes it: fixed words, names still without their
quotes, and values still in the place of their placeholders. Writing a layout turns every piece
into a fragment of its own and sets the fragments side by side. A part whose pieces all have
empty text does not show, and joining leaves it out, as joining fragments does.
-/
namespace BoundSql

/-- A part of a statement that a dialect has not written yet. -/
inductive Piece where
  /-- Keywords, punctuation and numbers, the same in every dialect. -/
  | words (text : String)
  | name (name : String)
  | column (qualifier : Option String) (name : String)
  /-- A string literal of a definition. -/
  | literal (text : String)
  /-- The dialect's count for all rows. -/
  | allRows
  /-- A value that the caller supplied. -/
  | value (value : Value)
  /-- A count of rows, bound as an unsigned integer. -/
  | count (rows : UInt64)
  | raw (sql : RawSql)

namespace Piece

/-- A piece as its dialect writes it. -/
def sql (d : Dialect) : Piece → Fragment
  | .words text => .ofText text
  | .name n => .ofText (d.quote n)
  | .column qualifier n => .ofText (d.qualify qualifier n)
  | .literal text => .ofText (Text.literal text)
  | .allRows => .ofText (Number.natText d.maxRowCount.toNat)
  | .value v => .bound d.placeholder [v]
  | .count rows => .bound d.placeholder [.uint rows]
  | .raw r => r.sql

/-- Only fixed words and raw SQL may be empty texts. -/
def isVisible : Piece → Bool
  | .words text => text != ""
  | .raw r => r.text != ""
  | _ => true

end Piece

/-- A statement, or a part of one, in pieces. -/
abbrev Layout := List Piece

/-- Names, placeholders and columns have text, whatever the name is. -/
structure Dialect.Visible (d : Dialect) : Prop where
  quote : ∀ name, d.quote name ≠ ""
  placeholder : d.placeholder ≠ ""
  qualify : ∀ qualifier name, d.qualify qualifier name ≠ ""

theorem Text.quoted_ne_empty (quote : Char) (text : String) : Text.quoted quote text ≠ "" := by
  intro h
  have hl := congrArg String.toList h
  simp at hl

theorem Dialect.visible_mysql : Dialect.mysql.Visible where
  quote _ := Text.quoted_ne_empty _ _
  placeholder := by decide
  qualify qualifier name := by
    cases qualifier with
    | none =>
      by_cases h : name = "*"
      · simp [mysql, h]
      · simpa [mysql, h] using Text.quoted_ne_empty '\x60' name
    | some q => simp [mysql, String.append_eq_empty_iff]

namespace Fragment

@[simp] theorem text_empty : empty.text = "" := rfl

@[simp] theorem bindings_empty : empty.bindings = [] := rfl

@[simp] theorem text_bound (text : String) (values : List Value) :
    (bound text values).text = text := rfl

@[simp] theorem bindings_bound (text : String) (values : List Value) :
    (bound text values).bindings = values.map Value.binding := rfl

@[simp] theorem text_push (f : Fragment) (text : String) : (f.push text).text = f.text ++ text :=
  rfl

@[simp] theorem bindings_push (f : Fragment) (text : String) :
    (f.push text).bindings = f.bindings := List.append_nil _

@[simp] theorem text_pushBound (f : Fragment) (placeholder : String) (v : Value) :
    (f.pushBound placeholder v).text = f.text ++ placeholder := rfl

@[simp] theorem bindings_pushBound (f : Fragment) (placeholder : String) (v : Value) :
    (f.pushBound placeholder v).bindings = f.bindings ++ [v.binding] := rfl

/-- Fragments agree if their texts have the same characters. -/
theorem ext_chars {f g : Fragment} (text : f.text.toList = g.text.toList)
    (bindings : f.bindings = g.bindings) : f = g :=
  ext (String.toList_inj.1 text) bindings

theorem isEmpty_iff {f : Fragment} : f.isEmpty = true ↔ f.text = "" := String.isEmpty_iff

theorem ofText_append (s t : String) : ofText (s ++ t) = ofText s ++ ofText t := by
  ext1 <;> simp

theorem empty_append (f : Fragment) : empty ++ f = f := by
  ext1 <;> simp

theorem append_empty (f : Fragment) : f ++ empty = f := by
  ext1 <;> simp

end Fragment

namespace Layout

/-- All pieces side by side. -/
def write (d : Dialect) (l : Layout) : Fragment := l.foldr (fun p f => p.sql d ++ f) .empty

/-- Whether any piece has text. -/
def isVisible (l : Layout) : Bool := l.any Piece.isVisible

/-- The parts that show, with a separator between them. -/
def joined (separator : String) (parts : List Layout) : Layout :=
  List.intercalate [.words separator] (parts.filter isVisible)

/-- Words in front of a part, unless the part is missing. -/
def headed (before : String) : Layout → Layout
  | [] => []
  | p :: l => .words before :: p :: l

/-- Words on both sides of a part, unless the part is missing. -/
def enclosed (before after : String) : Layout → Layout
  | [] => []
  | p :: l => .words before :: p :: (l ++ [.words after])

/-- A part followed by its label, if it has one. -/
def labelled (l : Layout) : Option String → Layout
  | some label => l ++ [.words " as ", .name label]
  | none => l

@[simp] theorem isVisible_nil : isVisible [] = false := rfl

@[simp] theorem isVisible_cons (p : Piece) (l : Layout) :
    isVisible (p :: l) = (p.isVisible || isVisible l) := rfl

@[simp] theorem isVisible_append (k l : Layout) :
    isVisible (k ++ l) = (isVisible k || isVisible l) := List.any_append

/-! ## Writing -/

section
variable (d : Dialect)

@[simp] theorem write_nil : write d [] = .empty := rfl

@[simp] theorem write_cons (p : Piece) (l : Layout) : write d (p :: l) = p.sql d ++ write d l := rfl

@[simp] theorem write_append (k l : Layout) : write d (k ++ l) = write d k ++ write d l := by
  induction k with
  | nil => simp [Fragment.empty_append]
  | cons p k ih => simp [ih, Fragment.append_assoc]

theorem write_singleton (p : Piece) : write d [p] = p.sql d := Fragment.append_empty _

/-- Separated parts, none of them left out. -/
theorem write_intercalate (separator : String) (parts : List Layout) :
    write d (List.intercalate [.words separator] parts) =
      ⟨String.intercalate separator (parts.map fun l => (write d l).text),
        parts.flatMap fun l => (write d l).bindings⟩ := by
  induction parts with
  | nil => rfl
  | cons l rest ih =>
    cases rest with
    | nil => ext1 <;> simp
    | cons m rest =>
      rw [List.intercalate_cons_cons, write_append, write_append, ih]
      ext1 <;> simp [Piece.sql]

/-- Texts between separators, given the layout of each. -/
theorem ofText_intercalate (separator : String) {texts : List String} {parts : List Layout}
    (h : texts.map Fragment.ofText = parts.map (write d)) :
    Fragment.ofText (String.intercalate separator texts) =
      write d (List.intercalate [.words separator] parts) := by
  have htexts : texts = parts.map fun l => (write d l).text := by
    have hmap := congrArg (List.map Fragment.text) h
    simpa [Function.comp_def] using hmap
  have hbindings : ∀ l ∈ parts, (write d l).bindings = [] := by
    intro l hl
    have hmem : write d l ∈ texts.map Fragment.ofText := h ▸ List.mem_map_of_mem hl
    obtain ⟨text, -, htext⟩ := List.mem_map.1 hmem
    rw [← htext, Fragment.bindings_ofText]
  rw [write_intercalate]
  ext1
  · exact congrArg (String.intercalate separator) htexts
  · exact (List.flatMap_eq_nil_iff.2 hbindings).symm

end

/-! ## What shows -/

section
variable {d : Dialect} (hd : d.Visible)
include hd

theorem text_sql_eq_empty_iff (p : Piece) : (p.sql d).text = "" ↔ p.isVisible = false := by
  cases p with
  | words text => simp [Piece.sql, Piece.isVisible]
  | name n => simpa [Piece.sql, Piece.isVisible] using hd.quote n
  | column qualifier n => simpa [Piece.sql, Piece.isVisible] using hd.qualify qualifier n
  | literal text =>
    simpa [Piece.sql, Piece.isVisible, Text.literal] using Text.quoted_ne_empty '\x27' text
  | allRows =>
    have hn : Number.natText d.maxRowCount.toNat ≠ "" := by
      rw [Number.natText, ne_eq, String.ofList_eq_empty_iff]
      exact Nat.toDigits_ne_nil
    simpa [Piece.sql, Piece.isVisible] using hn
  | value v => simpa [Piece.sql, Piece.isVisible] using hd.placeholder
  | count rows => simpa [Piece.sql, Piece.isVisible] using hd.placeholder
  | raw r => simp [Piece.sql, Piece.isVisible, RawSql.sql, Fragment.bound]

/-- A layout without visible pieces is written as no text, and no other is. -/
theorem isEmpty_write (l : Layout) : (write d l).isEmpty = !isVisible l := by
  rw [Bool.eq_iff_iff, Fragment.isEmpty_iff]
  induction l with
  | nil => simp
  | cons p l ih =>
    simp only [write_cons, Fragment.text_append, String.append_eq_empty_iff, isVisible_cons,
      text_sql_eq_empty_iff hd p, ih]
    cases p.isVisible <;> simp

/-- Writing commutes with joining. -/
theorem joined_write (separator : String) (parts : List Layout) :
    Fragment.joined separator (parts.map (write d)) = write d (joined separator parts) := by
  have hkept : (parts.map (write d)).filter (fun f => !f.isEmpty) =
      (parts.filter isVisible).map (write d) := by
    rw [List.filter_map]
    congr 1
    apply List.filter_congr
    intro l _
    simp [isEmpty_write hd]
  unfold Fragment.joined joined
  rw [hkept, write_intercalate]
  simp [List.flatMap_map, Function.comp_def]

/-- Writing commutes with surrounding a part that is missing whenever it has no text. -/
theorem enclosed_write (before after : String) {l : Layout} (h : isVisible l = false → l = []) :
    (write d l).surrounded before after = write d (enclosed before after l) := by
  cases l with
  | nil => rfl
  | cons p l =>
    have hl : (write d (p :: l)).isEmpty = false := by
      rw [isEmpty_write hd]
      cases hv : isVisible (p :: l) with
      | false => exact absurd (h hv) (by simp)
      | true => rfl
    rw [Fragment.surrounded, hl]
    ext1 <;> simp [enclosed, Piece.sql, String.append_assoc]

theorem headed_write (before : String) {l : Layout} (h : isVisible l = false → l = []) :
    (write d l).surrounded before "" = write d (headed before l) := by
  rw [enclosed_write hd before "" h]
  cases l with
  | nil => rfl
  | cons p l => ext1 <;> simp [enclosed, headed, Piece.sql]

end

/-- A part written between the others shows, so what is joined shows or has no pieces. -/
theorem joined_eq_nil {separator : String} {parts : List Layout}
    (h : isVisible (joined separator parts) = false) : joined separator parts = [] := by
  unfold joined at *
  have hkept : ∀ l ∈ parts.filter isVisible, isVisible l = true := by simp
  generalize parts.filter isVisible = kept at h hkept
  match kept with
  | [] => rfl
  | [l] => simp_all
  | l :: m :: rest => simp_all

theorem isVisible_joined (separator : String) (parts : List Layout) :
    isVisible (joined separator parts) = parts.any isVisible := by
  have hkept : ∀ l ∈ parts.filter isVisible, isVisible l = true :=
    fun l hl => (List.mem_filter.1 hl).2
  have hany : parts.any isVisible = !(parts.filter isVisible).isEmpty := by
    rw [Bool.eq_iff_iff]
    simp
  rw [joined, hany]
  cases hparts : parts.filter isVisible with
  | nil => rfl
  | cons l rest =>
    have hl := hkept l (by simp [hparts])
    cases rest <;> simp [hl]

/-- A part is joined to the others if it shows. -/
theorem joined_cons (separator : String) (l : Layout) (parts : List Layout) :
    joined separator (l :: parts) =
      if isVisible l then
        if isVisible (joined separator parts) then l ++ .words separator :: joined separator parts
        else l
      else joined separator parts := by
  cases hl : isVisible l with
  | false => simp [joined, hl]
  | true =>
    rw [isVisible_joined]
    unfold joined
    rw [List.filter_cons_of_pos hl]
    cases hparts : parts.filter isVisible with
    | nil =>
      have hnone : parts.any isVisible = false := by
        simpa [List.filter_eq_nil_iff] using hparts
      simp [hnone]
    | cons m rest =>
      have hsome : parts.any isVisible = true :=
        List.any_eq_true.2 ⟨m, List.mem_filter.1 (hparts ▸ List.mem_cons_self ..)⟩
      simp [hsome, List.intercalate_cons_cons]

theorem isVisible_enclosed (before after : String) {l : Layout} (hbefore : before ≠ "")
    (h : isVisible l = false → l = []) : isVisible (enclosed before after l) = isVisible l := by
  cases hl : isVisible l with
  | false =>
    rw [h hl]
    rfl
  | true =>
    cases l with
    | nil => cases hl
    | cons p l => simp [enclosed, Piece.isVisible, hbefore]

/-! ## Other pieces -/

/-- A change of pieces that keeps words and keeps what shows. -/
structure IsStable (g : Piece → Piece) : Prop where
  visible : ∀ p, (g p).isVisible = p.isVisible
  words : ∀ s, g (.words s) = .words s

section
variable {g : Piece → Piece} (hg : IsStable g)
include hg

theorem isVisible_map (l : Layout) : isVisible (l.map g) = isVisible l := by
  rw [isVisible, isVisible, List.any_map]
  exact congrArg l.any (funext hg.visible)

theorem intercalate_map (separator : String) (parts : List Layout) :
    List.intercalate [.words separator] (parts.map (List.map g)) =
      (List.intercalate [.words separator] parts).map g := by
  induction parts with
  | nil => rfl
  | cons l rest ih =>
    cases rest with
    | nil => simp
    | cons m rest =>
      rw [List.map_cons, List.map_cons, List.intercalate_cons_cons, List.intercalate_cons_cons,
        List.map_append, List.map_append, ← ih, List.map_singleton, hg.words, List.map_cons]

theorem joined_map (separator : String) (parts : List Layout) :
    joined separator (parts.map (List.map g)) = (joined separator parts).map g := by
  have hkept : (parts.map (List.map g)).filter isVisible =
      (parts.filter isVisible).map (List.map g) := by
    rw [List.filter_map]
    congr 1
    exact List.filter_congr fun l _ => isVisible_map hg l
  rw [joined, hkept, intercalate_map hg]
  rfl

theorem headed_map (before : String) (l : Layout) :
    headed before (l.map g) = (headed before l).map g := by
  cases l with
  | nil => rfl
  | cons p l => simp [headed, hg.words]

theorem enclosed_map (before after : String) (l : Layout) :
    enclosed before after (l.map g) = (enclosed before after l).map g := by
  cases l with
  | nil => rfl
  | cons p l => simp [enclosed, hg.words]

end
end Layout
end BoundSql
