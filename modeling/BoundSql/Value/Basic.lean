import BoundSql.Calendar.DateTime
import BoundSql.Number.Text

/-!
# Values

The values bound to the placeholders of a statement. A list holds the members of a `SET` column;
a driver receives it as one text with commas between the members, and that text is split at its
commas when it comes back.
-/
namespace BoundSql

/-- A value bound to a placeholder. -/
inductive Value where
  | null
  | bool (value : Bool)
  | int (value : Int64)
  | uint (value : UInt64)
  | float (value : Number.Binary64)
  | dateTime (value : DateTime)
  | date (value : Date)
  | string (value : String)
  | list (members : List Value)

namespace Value

instance : Inhabited Value := ⟨.null⟩

def isNull : Value → Bool
  | .null => true
  | _ => false

def int64Text (n : Int64) : String := Number.intText n.toInt

def uint64Text (n : UInt64) : String := Number.natText n.toNat

mutual

/-- A member of a list as it stands in the driver's text: no quotes, and nothing for `null`. -/
def memberText : Value → String
  | .null => ""
  | .bool b => if b then "true" else "false"
  | .int n => int64Text n
  | .uint n => uint64Text n
  | .float x => Number.FloatFormat.plain.text x
  | .dateTime t => t.sqlText
  | .date d => d.text
  | .string s => s
  | .list members => String.intercalate "," (memberTexts members)

def memberTexts : List Value → List String
  | [] => []
  | v :: rest => v.memberText :: memberTexts rest

end

/-- The form in which a driver receives the value: a list becomes its members' text. -/
def binding : Value → Value
  | .list members => .string (String.intercalate "," (memberTexts members))
  | v => v

/-- Splits at every comma; the empty text has no members. -/
def ofSet (text : String) : Value :=
  if text = "" then .list []
  else .list ((splitCommas text.toList).map fun cs => .string (String.ofList cs))
where
  /-- The pieces between commas, always at least one. -/
  splitCommas : List Char → List (List Char)
    | [] => [[]]
    | c :: rest =>
      if c = ',' then [] :: splitCommas rest
      else
        match splitCommas rest with
        | piece :: pieces => (c :: piece) :: pieces
        | [] => [[c]]

/-- The text shown to a reader: dates, texts and lists between single quotes, nothing escaped. -/
def text (v : Value) : String :=
  match v with
  | .null => "NULL"
  | .dateTime _ | .date _ | .string _ | .list _ => "'" ++ v.memberText ++ "'"
  | _ => v.memberText

@[simp] theorem memberTexts_eq_map (vs : List Value) : memberTexts vs = vs.map memberText := by
  induction vs with
  | nil => simp [memberTexts]
  | cons v rest ih => simp [memberTexts, ih]

/-- The driver's form of a value is no list. -/
theorem binding_ne_list (v : Value) (members : List Value) : v.binding ≠ .list members := by
  cases v <;> simp [binding]

@[simp] theorem binding_binding (v : Value) : v.binding.binding = v.binding := by
  cases v <;> simp [binding]

end Value
end BoundSql
