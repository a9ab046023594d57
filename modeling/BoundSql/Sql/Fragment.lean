import BoundSql.Value.Document

/-!
# Fragments

A fragment is SQL text together with the values of its placeholders from left to right. Values
are kept as a driver receives them. Joining leaves out parts without text, so that an absent
clause leaves no separator behind.
-/
namespace BoundSql

/-- SQL text and the values bound to its placeholders. -/
structure Fragment where
  text : String
  bindings : List Value

namespace Fragment

/-- Text with values, which are brought into the driver's form. -/
def bound (text : String) (values : List Value) : Fragment := ⟨text, values.map Value.binding⟩

/-- Text without values. -/
def ofText (text : String) : Fragment := ⟨text, []⟩

def empty : Fragment := ofText ""

/-- Whether there is no text. -/
def isEmpty (f : Fragment) : Bool := f.text.isEmpty

protected def append (f g : Fragment) : Fragment := ⟨f.text ++ g.text, f.bindings ++ g.bindings⟩

instance : Append Fragment := ⟨Fragment.append⟩

/-- Adds text at the end. -/
def push (f : Fragment) (text : String) : Fragment := f ++ ofText text

/-- Adds a placeholder and its value at the end. -/
def pushBound (f : Fragment) (placeholder : String) (value : Value) : Fragment :=
  f ++ bound placeholder [value]

/-- The parts that have text, with a separator between them. -/
def joined (separator : String) (parts : List Fragment) : Fragment :=
  let kept := parts.filter fun f => !f.isEmpty
  ⟨String.intercalate separator (kept.map text), kept.flatMap bindings⟩

/-- The fragment between two texts; nothing around a fragment without text. -/
def surrounded (before after : String) (f : Fragment) : Fragment :=
  if f.isEmpty then f else ofText before ++ f ++ ofText after

/-- The number of question marks, wherever they stand. -/
def placeholderCount (f : Fragment) : Nat := f.text.toList.count '?'

def toJson (f : Fragment) : Json :=
  .object [("expression", .string f.text), ("bindings", .ofList Value.toJson f.bindings)]

/-- Values stay as the document has them. -/
def ofJson? (j : Json) : Option Fragment :=
  match j.fields? ["expression", "bindings"] with
  | some [text, bindings] => do
    return ⟨← Json.required Json.string? text, ← Json.required Value.listOfJson? bindings⟩
  | _ => none

/-- Reads a fragment from JSON text. -/
def parse? (text : String) : Option Fragment := Json.parse? text >>= ofJson?

@[ext] theorem ext {f g : Fragment} (text : f.text = g.text) (bindings : f.bindings = g.bindings) :
    f = g := by
  cases f; cases g; simp_all

@[simp] theorem text_append (f g : Fragment) : (f ++ g).text = f.text ++ g.text := rfl

@[simp] theorem bindings_append (f g : Fragment) :
    (f ++ g).bindings = f.bindings ++ g.bindings := rfl

@[simp] theorem text_ofText (s : String) : (ofText s).text = s := rfl

@[simp] theorem bindings_ofText (s : String) : (ofText s).bindings = [] := rfl

theorem append_assoc (f g h : Fragment) : f ++ g ++ h = f ++ (g ++ h) := by
  ext1 <;> simp [String.append_assoc]

@[simp] theorem joined_nil (separator : String) : joined separator [] = empty := by
  simp [joined, empty, ofText]

end Fragment
end BoundSql
