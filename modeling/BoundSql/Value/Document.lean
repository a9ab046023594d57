import BoundSql.Json.Decode
import BoundSql.Json.Reader
import BoundSql.Value.Basic

/-!
# Values in documents

Values are plain JSON scalars and arrays; dates and times carry a tag, `{"date": ...}` or
`{"datetime": ...}`. A tag may also be written as an array of one text, so such an array is a
time if its text reads as one, else a date if it reads as one, else a list. Integers load as
signed ones wherever they fit.
-/
namespace BoundSql.Value

mutual

def toJson : Value → Json
  | .null => .null
  | .bool b => .bool b
  | .int n => .ofInt64 n
  | .uint n => .ofUInt64 n
  | .float x => .ofBinary64 x
  | .dateTime t => .object [("datetime", .string t.text)]
  | .date d => .object [("date", .string d.text)]
  | .string s => .string s
  | .list members => .array (toJsons members)

def toJsons : List Value → List Json
  | [] => []
  | v :: rest => v.toJson :: toJsons rest

end

/-- The text under a tag that stands alone in an object, or the only item of an array. -/
def tagged? (tag : String) : Json → Option String
  | .object [(name, .string s)] => if name = tag then some s else none
  | .array [.string s] => some s
  | _ => none

/-- A time or a date, times first. -/
def calendar? (j : Json) : Option Value :=
  match (tagged? "datetime" j).bind DateTime.parse? with
  | some t => some (.dateTime t)
  | none => ((tagged? "date" j).bind Date.parse?).map .date

/-- An integer: signed if it fits, else unsigned. -/
def ofWhole (n : Whole) : Value :=
  match n.toInt64? with
  | some i => .int i
  | none => .uint (UInt64.ofNat n.val.toNat)

mutual

def ofJson? : Json → Option Value
  | .null => some .null
  | .bool b => some (.bool b)
  | .whole n => some (ofWhole n)
  | .float x => some (.float x)
  | .string s => some (.string s)
  | .array items =>
    match calendar? (.array items) with
    | some v => some v
    | none => (ofJsons? items).map .list
  | .object members => calendar? (.object members)
  | .unreadable => none

def ofJsons? : List Json → Option (List Value)
  | [] => some []
  | j :: rest => do return (← ofJson? j) :: (← ofJsons? rest)

end

/-- A list of values, never taken for a date. -/
def listOfJson? : Json → Option (List Value)
  | .array items => ofJsons? items
  | _ => none

/-- Reads a value from JSON text. -/
def parse? (text : String) : Option Value := Json.parse? text >>= ofJson?

@[simp] theorem toJsons_eq_map (vs : List Value) : toJsons vs = vs.map toJson := by
  induction vs with
  | nil => simp [toJsons]
  | cons v rest ih => simp [toJsons, ih]

end BoundSql.Value
