import BoundSql.Number.Digits
import BoundSql.Text.Blank
import BoundSql.Text.Reader

/-!
# Calendar dates

Days of the proleptic Gregorian calendar between the years -262143 and 262142. A date is
written `YYYY-MM-DD`, with a sign and at least four digits for a year outside 0 to 9999. It is
read with one or two digits for month and day and white space before every part; a year of more
than four digits needs its sign.
-/
namespace BoundSql

namespace Calendar

def isLeapYear (year : Int) : Bool :=
  year % 4 == 0 && (year % 100 != 0 || year % 400 == 0)

def daysInMonth (year : Int) (month : Nat) : Nat :=
  if month = 2 then (if isLeapYear year then 29 else 28)
  else if month = 4 ∨ month = 6 ∨ month = 9 ∨ month = 11 then 30
  else 31

/-- The parts name a day of the calendar. -/
def IsDay (year : Int) (month day : Nat) : Prop :=
  -262143 ≤ year ∧ year ≤ 262142 ∧ 1 ≤ month ∧ month ≤ 12 ∧ 1 ≤ day ∧ day ≤ daysInMonth year month

instance (year : Int) (month day : Nat) : Decidable (IsDay year month day) := by
  unfold IsDay; infer_instance

end Calendar

open Calendar

/-- A day of the calendar. -/
structure Date where
  year : Int
  month : Nat
  day : Nat
  isDay : IsDay year month day
deriving DecidableEq

namespace Calendar

open Text (Reader)

/-- At least one and at most `limit` digits, after any white space. -/
def field (limit : Nat) : Reader Nat := fun cs =>
  let (run, rest) := Number.takeDigits limit (Text.trimStart cs)
  if run = [] then none else some (Number.ofDigits run, rest)

/-- Digits right after a sign, as many as there are. -/
def signedDigits : Reader Nat := fun cs =>
  let run := cs.takeWhile Char.isDigit
  if run = [] then none else some (Number.ofDigits run, cs.dropWhile Char.isDigit)

/-- A year: up to four digits, or a sign and any number of them. -/
def yearField : Reader Int := fun cs =>
  match Text.trimStart cs with
  | '-' :: rest => (signedDigits rest).map fun (n, r) => (-(n : Int), r)
  | '+' :: rest => (signedDigits rest).map fun (n, r) => ((n : Int), r)
  | cs => (field 4 cs).map fun (n, r) => ((n : Int), r)

/-- A given character after any white space. -/
def mark (c : Char) (cs : List Char) : Option (List Char) :=
  Text.expect c (Text.trimStart cs)

/-- A year in at least four digits, signed outside 0 to 9999. -/
def yearText (year : Int) : List Char :=
  if 0 ≤ year ∧ year ≤ 9999 then Number.padded 4 year.natAbs
  else (if year < 0 then '-' else '+') :: Number.padded 4 year.natAbs

end Calendar

namespace Date

open Text (Reader)

def ofParts? (year : Int) (month day : Nat) : Option Date :=
  if h : IsDay year month day then some ⟨year, month, day, h⟩ else none

/-- The characters of `YYYY-MM-DD`. -/
def chars (d : Date) : List Char :=
  yearText d.year ++ '-' :: Number.padded 2 d.month ++ '-' :: Number.padded 2 d.day

/-- `YYYY-MM-DD`. -/
def text (d : Date) : String := String.ofList d.chars

/-- Reads the date at the front of a text. -/
def read : Reader Date := fun cs => do
  let (year, cs) ← yearField cs
  let cs ← mark '-' cs
  let (month, cs) ← field 2 cs
  let cs ← mark '-' cs
  let (day, cs) ← field 2 cs
  let date ← ofParts? year month day
  return (date, cs)

/-- Reads a date with nothing but white space after it. -/
def parse? (s : String) : Option Date := do
  let (date, rest) ← read s.toList
  if Text.trimStart rest = [] then some date else none

end Date
end BoundSql
