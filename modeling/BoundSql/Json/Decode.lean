import BoundSql.Json.Basic

/-!
# Decoding JSON

A record is an object or the array of its fields in their order. In an object, members with
other names are passed over and no field may stand twice; in an array, fields may be missing
only at the end. An alternative is an object with one member, named for it; an alternative
without content may also be written as its bare name.

Whatever a decoder takes out of a value is smaller than the value, which is what lets decoders
call each other.
-/
namespace BoundSql.Json

/-- A value inside another. -/
abbrev Part (j : Json) := { part : Json // sizeOf part < sizeOf j }

theorem sizeOf_item_lt {items : List Json} {j : Json} (h : j ∈ items) :
    sizeOf j < sizeOf (Json.array items) := by
  have := List.sizeOf_lt_of_mem h
  simp only [Json.array.sizeOf_spec]
  omega

theorem sizeOf_member_lt {members : List (String × Json)} {m : String × Json} (h : m ∈ members) :
    sizeOf m.2 < sizeOf (Json.object members) := by
  have hm := List.sizeOf_lt_of_mem h
  have : sizeOf m = 1 + sizeOf m.1 + sizeOf m.2 := by cases m; rfl
  simp only [Json.object.sizeOf_spec]
  omega

/-- The items of an array as parts of it. -/
def parts (items : List Json) : List (Json.array items).Part :=
  items.attachWith (fun p => sizeOf p < sizeOf (Json.array items)) fun _ => sizeOf_item_lt

/-- The items of an array. -/
def items? : (j : Json) → Option (List j.Part)
  | .array items => some (parts items)
  | _ => none

/-- The first member with a name. -/
def member? (name : String) : (members : List (String × Json)) → Option (Json.object members).Part
  | members => (members.attach.find? fun m => m.val.1 == name).map
      fun m => ⟨m.val.2, sizeOf_member_lt m.property⟩

/-- One entry for each field of a record, in the order of `names`: the field, or nothing where
it is missing. -/
def fields? (names : List String) : (j : Json) → Option (List (Option j.Part))
  | .array items =>
    if items.length ≤ names.length then
      some ((parts items).map some ++ List.replicate (names.length - items.length) none)
    else none
  | .object members =>
    if names.all fun name => members.countP (·.1 == name) ≤ 1 then
      some (names.map (member? · members))
    else none
  | _ => none

/-- The name and the content of an alternative. -/
def variant? : (j : Json) → Option (String × j.Part)
  | .object [(name, part)] => some (name, ⟨part, sizeOf_member_lt (m := (name, part)) (by simp)⟩)
  | _ => none

/-- The name of an alternative without content. -/
def tag? : Json → Option String
  | .string name => some name
  | .object [(name, .null)] => some name
  | _ => none

/-! ## Fields -/

section
variable {α : Type} {j : Json}

/-- A field that must be there. -/
def required (decode : Json → Option α) : Option j.Part → Option α
  | some part => decode part.val
  | none => none

/-- A field with a default. -/
def defaulted (default : α) (decode : Json → Option α) : Option j.Part → Option α
  | some part => decode part.val
  | none => some default

/-- A field that may be missing or `null`. -/
def optional (decode : Json → Option α) : Option j.Part → Option (Option α)
  | some part =>
    match part.val with
    | .null => some none
    | json => (decode json).map some
  | none => some none

end

/-! ## Scalars and lists -/

def bool? : Json → Option Bool
  | .bool b => some b
  | _ => none

def string? : Json → Option String
  | .string s => some s
  | _ => none

def int64? : Json → Option Int64
  | .whole n => n.toInt64?
  | _ => none

def uint64? : Json → Option UInt64
  | .whole n => n.toUInt64?
  | _ => none

def uint32? : Json → Option UInt32
  | .whole n => n.toUInt32?
  | _ => none

/-- Any number, to the nearest double. -/
def binary64? : Json → Option Number.Binary64
  | .whole n => some n.toBinary64
  | .float x => some x
  | _ => none

/-- An array with every item decoded. -/
def list? {α : Type} (decode : Json → Option α) : Json → Option (List α)
  | .array items => items.mapM decode
  | _ => none

/-- An array of exactly two items. -/
def pair? {α β : Type} (first : Json → Option α) (second : Json → Option β) :
    Json → Option (α × β)
  | .array [a, b] => do return (← first a, ← second b)
  | _ => none

end BoundSql.Json
