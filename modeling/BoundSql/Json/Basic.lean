import BoundSql.Number.Binary64

/-!
# JSON values

A document is a tree of JSON values. Object members keep their order and may repeat a name, so
that a decoder can refuse the repetition. Integers are those of the two 64-bit ranges; any
other number is a double.
-/
namespace BoundSql

/-- An integer that fits 64 bits, signed or unsigned. -/
structure Whole where
  val : Int
  fits : -0x8000000000000000 ≤ val ∧ val < 0x10000000000000000
deriving DecidableEq

namespace Whole

def ofInt? (n : Int) : Option Whole :=
  if h : -0x8000000000000000 ≤ n ∧ n < 0x10000000000000000 then some ⟨n, h⟩ else none

def ofInt64 (n : Int64) : Whole :=
  ⟨n.toInt, by have := n.le_toInt; have := n.toInt_lt; omega⟩

def ofUInt64 (n : UInt64) : Whole :=
  ⟨n.toNat, by have := n.toNat_lt; omega⟩

def ofUInt32 (n : UInt32) : Whole :=
  ⟨n.toNat, by have := n.toNat_lt; omega⟩

/-- The same integer as a signed word, if it fits one. -/
def toInt64? (n : Whole) : Option Int64 :=
  if n.val < 0x8000000000000000 then some (Int64.ofInt n.val) else none

/-- The same integer as an unsigned word, if it is not negative. -/
def toUInt64? (n : Whole) : Option UInt64 :=
  if 0 ≤ n.val then some (UInt64.ofNat n.val.toNat) else none

/-- The same integer as a short unsigned word, if it fits one. -/
def toUInt32? (n : Whole) : Option UInt32 :=
  if 0 ≤ n.val ∧ n.val < 0x100000000 then some (UInt32.ofNat n.val.toNat) else none

/-- The nearest double. -/
def toBinary64 (n : Whole) : Number.Binary64 :=
  let x := Number.Binary64.ofNat n.val.natAbs
  if n.val < 0 then x.neg else x

end Whole

/-- A JSON value. `unreadable` stands for text that follows the grammar and yet has no value
here: a number beyond the doubles, a string with half a surrogate pair, or nesting that is too
deep. A decoder passes over it in a member it ignores and fails on it anywhere else. -/
inductive Json where
  | null
  | bool (value : Bool)
  | whole (value : Whole)
  | float (value : Number.Binary64)
  | string (value : String)
  | array (items : List Json)
  | object (members : List (String × Json))
  | unreadable

namespace Json

instance : Inhabited Json := ⟨.null⟩

def ofOption {α : Type} (encode : α → Json) : Option α → Json
  | none => .null
  | some a => encode a

def ofList {α : Type} (encode : α → Json) (as : List α) : Json := .array (as.map encode)

def ofInt64 (n : Int64) : Json := .whole (.ofInt64 n)

def ofUInt64 (n : UInt64) : Json := .whole (.ofUInt64 n)

def ofUInt32 (n : UInt32) : Json := .whole (.ofUInt32 n)

/-- JSON has no infinities and no `nan`; they become `null`. -/
def ofBinary64 (x : Number.Binary64) : Json := if x.isFinite then .float x else .null

def ofString? (s : Option String) : Json := ofOption .string s

end Json
end BoundSql
