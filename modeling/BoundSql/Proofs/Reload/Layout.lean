import BoundSql.Proofs.Layout.Query
import BoundSql.Proofs.Reload.Basic

/-!
# Layouts with other values

A statement looks at a value only to write `IS TRUE` and the like, and to name it in the message
of a refusal. Any change of values that keeps these two changes the values of the layout and
nothing else.
-/
namespace BoundSql

open Layout

/-- A change of values that a statement does not see: the keyword and the text of a value stay, a
text stays itself, and the driver's form changes like the value. -/
structure Value.IsUnseen (f : Value → Value) : Prop where
  literal : ∀ v, Expr.literal? (f v) = Expr.literal? v
  text : ∀ v, (f v).text = v.text
  binding : ∀ v, (f v).binding = f v.binding
  string : ∀ s, f (.string s) = .string s

section
variable (f : Value → Value)

def Piece.mapValues : Piece → Piece
  | .value v => .value (f v)
  | .raw r => .raw (r.mapValues f)
  | p => p

/-- A layout with other values. -/
def Layout.mapValues (l : Layout) : Layout := l.map (Piece.mapValues f)

/-- The same cause, about the other value. -/
def Error.mapValues : Error → Error
  | .notLiteral op column value => .notLiteral op column (f value)
  | e => e

end

/-- For each placeholder of a piece, whether the caller supplied its value. -/
def Piece.supplied : Piece → List Bool
  | .value _ => [true]
  | .count _ => [false]
  | .raw r => r.bindings.map fun _ => true
  | _ => []

/-- For each placeholder, whether the caller supplied its value; else it counts rows. -/
def Layout.supplied (l : Layout) : List Bool := l.flatMap Piece.supplied

namespace Layout

section
variable (f : Value → Value)

@[simp] theorem mapValues_nil : mapValues f [] = [] := rfl

@[simp] theorem mapValues_cons (p : Piece) (l : Layout) :
    mapValues f (p :: l) = p.mapValues f :: mapValues f l := rfl

@[simp] theorem mapValues_append (k l : Layout) :
    mapValues f (k ++ l) = mapValues f k ++ mapValues f l := List.map_append

theorem isStable_mapValues : IsStable (Piece.mapValues f) where
  visible p := by cases p <;> rfl
  words _ := rfl

theorem intercalate_mapValues (separator : String) (parts : List Layout) :
    List.intercalate [.words separator] (parts.map (mapValues f)) =
      mapValues f (List.intercalate [.words separator] parts) :=
  intercalate_map (isStable_mapValues f) separator parts

theorem joined_mapValues (separator : String) (parts : List Layout) :
    joined separator (parts.map (mapValues f)) = mapValues f (joined separator parts) :=
  joined_map (isStable_mapValues f) separator parts

theorem headed_mapValues (before : String) (l : Layout) :
    headed before (mapValues f l) = mapValues f (headed before l) :=
  headed_map (isStable_mapValues f) before l

theorem enclosed_mapValues (before after : String) (l : Layout) :
    enclosed before after (mapValues f l) = mapValues f (enclosed before after l) :=
  enclosed_map (isStable_mapValues f) before after l

theorem labelled_mapValues (l : Layout) (label : Option String) :
    labelled (mapValues f l) label = mapValues f (labelled l label) := by
  cases label with
  | none => rfl
  | some label => simp [labelled, Piece.mapValues]

/-- A layout that binds nothing has no values to change. -/
theorem mapValues_of_unbound {d : Dialect} {l : Layout} (h : (write d l).bindings = []) :
    mapValues f l = l := by
  induction l with
  | nil => rfl
  | cons p l ih =>
    rw [write_cons, Fragment.bindings_append, List.append_eq_nil_iff] at h
    have hp : p.mapValues f = p := by
      cases p with
      | value v => cases h.1
      | raw r =>
        obtain ⟨text, bindings⟩ := r
        obtain rfl := List.map_eq_nil_iff.1 h.1
        rfl
      | _ => rfl
    rw [mapValues_cons, hp, ih h.2]

end

section
variable {f : Value → Value} (hf : Value.IsUnseen f) (d : Dialect)

theorem text_mapValues (f : Value → Value) (l : Layout) :
    (write d (mapValues f l)).text = (write d l).text := by
  induction l with
  | nil => rfl
  | cons p l ih =>
    have hp : ((p.mapValues f).sql d).text = (p.sql d).text := by cases p <;> rfl
    rw [mapValues_cons, write_cons, write_cons, Fragment.text_append, Fragment.text_append, hp, ih]

theorem Piece.length_supplied (p : Piece) : p.supplied.length = (p.sql d).bindings.length := by
  cases p <;> simp [Piece.supplied, Piece.sql, RawSql.sql]

theorem length_supplied (l : Layout) : (supplied l).length = (write d l).bindings.length := by
  induction l with
  | nil => rfl
  | cons p l ih =>
    rw [supplied, List.flatMap_cons, List.length_append, ← supplied, ih, Piece.length_supplied d,
      write_cons, Fragment.bindings_append, List.length_append]

include hf in
theorem bindings_supplied (values : List Value) :
    (values.map f).map Value.binding =
      List.zipWith (fun supplied v => if supplied then f v else v) (values.map fun _ => true)
        (values.map Value.binding) := by
  induction values with
  | nil => rfl
  | cons v rest ih =>
    rw [List.map_cons, List.map_cons, ih, hf.binding]
    rfl

include hf in
/-- What is bound changes in the places that the caller supplied. -/
theorem bindings_mapValues (l : Layout) :
    (write d (mapValues f l)).bindings =
      List.zipWith (fun supplied v => if supplied then f v else v) l.supplied
        (write d l).bindings := by
  induction l with
  | nil => rfl
  | cons p l ih =>
    have hp : ((p.mapValues f).sql d).bindings =
        List.zipWith (fun supplied v => if supplied then f v else v) p.supplied
          (p.sql d).bindings := by
      cases p with
      | value v => simp [Piece.mapValues, Piece.sql, Piece.supplied, hf.binding]
      | raw r => exact bindings_supplied hf r.bindings
      | _ => rfl
    rw [mapValues_cons, write_cons, write_cons, Fragment.bindings_append,
      Fragment.bindings_append, supplied, List.flatMap_cons,
      List.zipWith_append (Piece.length_supplied d p), hp, ih]
    rfl

end
end Layout
end BoundSql
