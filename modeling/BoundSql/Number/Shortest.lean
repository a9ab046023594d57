import BoundSql.Number.Binary64

/-!
# Shortest decimals

The decimal text of a double has the fewest digits that read back as the same double. The
reals that round to a double form an interval around it, with its ends when the significand is
even. Decimal grids are tried from coarse to fine; the first one with a point in the interval
wins, and of two such points the nearer one.
-/
namespace BoundSql.Number

/-- Which of two equally near decimals is taken. -/
inductive Tie where
  | even
  | up
deriving DecidableEq

/-- `coefficient * 10 ^ exponent`. -/
structure Decimal where
  coefficient : Nat
  exponent : Int
deriving DecidableEq

namespace Decimal

/-- Moves trailing zeros of the coefficient into the exponent. -/
def normalize (d : Decimal) : Decimal :=
  if d.coefficient ≠ 0 ∧ d.coefficient % 10 = 0 then
    normalize ⟨d.coefficient / 10, d.exponent + 1⟩
  else d
termination_by d.coefficient
decreasing_by omega

/-- The reals that round to a double, over one denominator: the double itself, the ends, and
whether the ends belong to it. -/
structure Interval where
  value : Nat
  low : Nat
  high : Nat
  den : Nat
  closed : Bool

/-- The neighbours of a double are half a unit away, a quarter below a power of two. -/
def interval (significand : Nat) (exponent : Int) : Interval :=
  let below := if significand = Binary64.leadingBit ∧ -1074 < exponent then 1 else 2
  let e := exponent - 2
  let scale := if e < 0 then 1 else twoTo e.toNat
  { value := 4 * significand * scale
    low := (4 * significand - below) * scale
    high := (4 * significand + 2) * scale
    den := if e < 0 then twoTo (-e).toNat else 1
    closed := significand % 2 == 0 }

namespace Interval

/-- `n / d` lies in the interval. -/
def holds (i : Interval) (n d : Nat) : Bool :=
  if i.closed then i.low * d ≤ n * i.den && n * i.den ≤ i.high * d
  else i.low * d < n * i.den && n * i.den < i.high * d

/-- The exponent of the first digit of the double. -/
def leading (i : Interval) : Int :=
  if i.den ≤ i.value then (digits (i.value / i.den)).length - 1
  else
    let inverse := i.den / i.value
    let n : Int := (digits inverse).length
    if i.value * inverse = i.den ∧ tenTo (n.toNat - 1) = inverse then 1 - n else -n

/-- The point of the grid of multiples of `10 ^ e` that lies in the interval, the nearer one
if both neighbours of the double do. -/
def onGrid? (tie : Tie) (i : Interval) (e : Int) : Option Nat :=
  let up := if e < 0 then 1 else tenTo e.toNat
  let down := if e < 0 then tenTo (-e).toNat else 1
  let step := up * i.den
  let floor := i.value * down / step
  let rest := i.value * down - floor * step
  let lower := i.holds (floor * up) down
  let upper := i.holds ((floor + 1) * up) down
  if lower && upper then
    if 2 * rest < step then some floor
    else if 2 * rest = step then
      match tie with
      | .even => some (if floor % 2 = 0 then floor else floor + 1)
      | .up => some (floor + 1)
    else some (floor + 1)
  else if lower then some floor
  else if upper then some (floor + 1)
  else none

/-- Tries grids from `10 ^ e` downwards. Seventeen digits always suffice; the last grid's lower
neighbour stands for the rest. -/
def search (tie : Tie) (i : Interval) : Nat → Int → Decimal
  | 0, e =>
    ⟨i.value * (if e < 0 then tenTo (-e).toNat else 1) /
      (i.den * if e < 0 then 1 else tenTo e.toNat), e⟩
  | fuel + 1, e =>
    match i.onGrid? tie e with
    | some c => ⟨c, e⟩
    | none => search tie i fuel (e - 1)

end Interval

/-- The shortest decimal that reads back as `significand * 2 ^ exponent`. -/
def shortest (tie : Tie) (significand : Nat) (exponent : Int) : Decimal :=
  let i := interval significand exponent
  (i.search tie 18 i.leading).normalize

end Decimal
end BoundSql.Number
