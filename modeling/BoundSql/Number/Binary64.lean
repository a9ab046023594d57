import BoundSql.Number.Digits

/-!
# Double precision numbers

A double is kept as its 64 bits and read as a sign, a natural significand and a power of two.
All arithmetic is exact arithmetic on natural numbers followed by one rounding, to the nearest
double and to an even significand from a half.
-/
namespace BoundSql.Number

/-- An IEEE 754 double, by its bits. -/
structure Binary64 where
  bits : UInt64
deriving DecidableEq

/-- What a double stands for: `finite` is `significand * 2 ^ exponent` under its sign. -/
inductive Binary64.Shape where
  | nan
  | infinite (negative : Bool)
  | finite (negative : Bool) (significand : Nat) (exponent : Int)
deriving DecidableEq

namespace Binary64

/-- The bit of the sign. -/
def signBit : Nat := 0x8000000000000000

/-- The first bit of a significand, which is not stored: `2 ^ 52`. -/
def leadingBit : Nat := 0x10000000000000

/-- The bits of the positive infinity, the largest magnitude that is no `nan`. -/
def infinityBits : Nat := 0x7ff * leadingBit

def ofMagnitude (negative : Bool) (magnitude : Nat) : Binary64 :=
  ⟨UInt64.ofNat ((if negative then signBit else 0) + magnitude)⟩

def zero (negative : Bool) : Binary64 := ofMagnitude negative 0

def infinity (negative : Bool) : Binary64 := ofMagnitude negative infinityBits

def nan : Binary64 := ofMagnitude false (infinityBits + leadingBit / 2)

def shape (x : Binary64) : Shape :=
  let n := x.bits.toNat
  let negative := signBit ≤ n
  let magnitude := n % signBit
  let biased : Nat := magnitude / leadingBit
  let fraction : Nat := magnitude % leadingBit
  if biased = 0x7ff then (if fraction = 0 then .infinite negative else .nan)
  else if biased = 0 then .finite negative fraction (-1074)
  else .finite negative (fraction + leadingBit) (biased - 1075)

def isZero (x : Binary64) : Bool :=
  match x.shape with
  | .finite _ significand _ => significand == 0
  | _ => false

def isInfinite (x : Binary64) : Bool :=
  match x.shape with
  | .infinite _ => true
  | _ => false

def isFinite (x : Binary64) : Bool :=
  match x.shape with
  | .finite .. => true
  | _ => false

/-- The other sign, also of a zero. -/
def neg (x : Binary64) : Binary64 := ⟨UInt64.ofNat (x.bits.toNat + signBit)⟩

/-- `num / den` to the nearest natural number, a half to the even one. -/
def roundDiv (num den : Nat) : Nat :=
  let q := num / den
  let r := num % den
  if 2 * r > den ∨ (2 * r = den ∧ q % 2 = 1) then q + 1 else q

/-- `num / den` in units of `2 ^ exponent`, as a numerator and a denominator. -/
def inUnits (num den : Nat) (exponent : Int) : Nat × Nat :=
  if exponent < 0 then (num * twoTo (-exponent).toNat, den) else (num, den * twoTo exponent.toNat)

/-- The double nearest to `num / den`. The exponent is the one at which the quotient has
53 bits, or the least there is; the rounded quotient then is the low part of the bits, and a
carry out of it moves on to the exponent by itself. -/
def ofRatio (negative : Bool) (num den : Nat) : Binary64 :=
  if num = 0 then zero negative else
    let low := max ((num.log2 : Int) - den.log2 - 53) (-1074)
    let (n, d) := inUnits num den low
    let exponent := if n / d < 2 * leadingBit then low else low + 1
    let (n, d) := inUnits num den exponent
    let magnitude := (exponent + 1074).toNat * leadingBit + roundDiv n d
    if infinityBits ≤ magnitude then infinity negative else ofMagnitude negative magnitude

def ofNat (n : Nat) : Binary64 := ofRatio false n 1

/-- The double nearest to `significand * 10 ^ exponent`. Exponents far outside the range of
doubles are settled by the count of digits alone. -/
def ofDecimal (negative : Bool) (significand : Nat) (exponent : Int) : Binary64 :=
  if significand = 0 then zero negative else
    let point := exponent + (digits significand).length
    if point > 310 then infinity negative
    else if point < -330 then zero negative
    else if exponent < 0 then ofRatio negative significand (tenTo (-exponent).toNat)
    else ofRatio negative (significand * tenTo exponent.toNat) 1

/-- The product of two finite doubles of positive sign, rounded once. -/
def mulPositive (x y : Binary64) : Binary64 :=
  match x.shape, y.shape with
  | .finite _ a i, .finite _ b j =>
    let (n, d) := inUnits (a * b) 1 (-(i + j))
    ofRatio false n d
  | _, _ => infinity false

/-- The quotient of two finite doubles of positive sign, rounded once. -/
def divPositive (x y : Binary64) : Binary64 :=
  match x.shape, y.shape with
  | .finite _ a i, .finite _ b j =>
    let (n, d) := inUnits a b (j - i)
    ofRatio false n d
  | _, _ => zero false

/-- The double nearest to `10 ^ n`. -/
def powTen (n : Nat) : Binary64 := ofRatio false (tenTo n) 1

/-- Divides by `10 ^ n`, one rounding for each `10 ^ 308` and one for the remaining power. -/
def shrink (x : Binary64) (n : Nat) : Binary64 :=
  if n ≤ 308 then divPositive x (powTen n)
  else if x.isZero then x
  else shrink (divPositive x (powTen 308)) (n - 308)
termination_by n

/-- `significand * 10 ^ exponent` in two or more roundings: the significand is rounded to a
double, then scaled by a rounded power of ten. `none` beyond the largest double. -/
def scaled? (negative : Bool) (significand : Nat) (exponent : Int) : Option Binary64 :=
  let x := ofNat significand
  let magnitude : Option Binary64 :=
    if exponent < 0 then some (shrink x (-exponent).toNat)
    else if exponent ≤ 308 then
      let y := mulPositive x (powTen exponent.toNat)
      if y.isInfinite then none else some y
    else if x.isZero then some x
    else none
  magnitude.map fun y => if negative then y.neg else y

end Binary64
end BoundSql.Number
