import BoundSql.Calendar.Date

/-!
# Times of a day

A time without a zone, to the nanosecond. The sixtieth second of any minute is a leap second.
Documents write `YYYY-MM-DDThh:mm:ss` with three, six or nine digits of a nonzero fraction;
statements write a space for the `T` and no fraction.
-/
namespace BoundSql

open Calendar
open Text (Reader)

/-- A time on the clock of a day. A leap second is the sixtieth second of its minute. Left out are
leap seconds that a library of dates can hold behind any other second, as no text denotes them. -/
structure Clock where
  hour : Nat
  minute : Nat
  second : Nat
  nanosecond : Nat
  onClock : hour < 24 ∧ minute < 60 ∧ second ≤ 60 ∧ nanosecond < 1000000000
deriving DecidableEq

/-- A time of a day. -/
structure DateTime where
  date : Date
  clock : Clock
deriving DecidableEq

namespace Clock

def ofParts? (hour minute second nanosecond : Nat) : Option Clock :=
  if h : hour < 24 ∧ minute < 60 ∧ second ≤ 60 ∧ nanosecond < 1000000000 then
    some ⟨hour, minute, second, nanosecond, h⟩
  else none

/-- `hh:mm:ss`. -/
def seconds (t : Clock) : List Char :=
  Number.padded 2 t.hour ++ ':' :: Number.padded 2 t.minute ++ ':' :: Number.padded 2 t.second

/-- The shortest of three, six and nine digits that is exact; nothing for zero. -/
def fraction (t : Clock) : List Char :=
  if t.nanosecond = 0 then []
  else if t.nanosecond % 1000000 = 0 then '.' :: Number.padded 3 (t.nanosecond / 1000000)
  else if t.nanosecond % 1000 = 0 then '.' :: Number.padded 6 (t.nanosecond / 1000)
  else '.' :: Number.padded 9 t.nanosecond

/-- The fraction of a second: its first nine digits count, the rest are passed over. -/
def readFraction : Reader Nat := fun cs =>
  match cs with
  | '.' :: rest =>
    let (run, rest) := Number.takeDigits 9 rest
    if run = [] then none
    else some (Number.ofDigits run * Number.tenTo (9 - run.length), rest.dropWhile Char.isDigit)
  | _ => some (0, cs)

/-- Reads `h:m:s` and a fraction. -/
def read : Reader Clock := fun cs => do
  let (hour, cs) ← field 2 cs
  let cs ← mark ':' cs
  let (minute, cs) ← field 2 cs
  let cs ← mark ':' cs
  let (second, cs) ← field 2 cs
  let (nanosecond, cs) ← readFraction cs
  let clock ← ofParts? hour minute second nanosecond
  return (clock, cs)

end Clock

namespace DateTime

/-- The form in documents, `YYYY-MM-DDThh:mm:ss` and the fraction. -/
def text (t : DateTime) : String :=
  String.ofList (t.date.chars ++ 'T' :: t.clock.seconds ++ t.clock.fraction)

/-- The form in statements, `YYYY-MM-DD hh:mm:ss`. -/
def sqlText (t : DateTime) : String :=
  String.ofList (t.date.chars ++ ' ' :: t.clock.seconds)

/-- Reads a date, a `T` and a time with nothing but white space after them. -/
def parse? (s : String) : Option DateTime := do
  let (date, cs) ← Date.read s.toList
  let cs ← mark 'T' cs
  let (clock, cs) ← Clock.read cs
  if Text.trimStart cs = [] then some ⟨date, clock⟩ else none

end DateTime
end BoundSql
