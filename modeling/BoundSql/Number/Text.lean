import BoundSql.Number.Shortest

/-!
# Texts of doubles

Two notations share the shortest digits. Positional text never has an exponent and no trailing
fraction. Scientific text keeps a fraction of at least one digit between `1e-5` and `1e16` and
has a signed exponent outside.
-/
namespace BoundSql.Number

/-- How the digits of a double become text. `positional` tells from the place of the decimal
point, counted from in front of the first digit, whether the number is written without an
exponent. -/
structure FloatFormat where
  tie : Tie
  positional : Int → Bool
  keepFraction : Bool

namespace FloatFormat

/-- Digits with the point after the first `point` of them, zeros filling up either side. -/
def place (f : FloatFormat) (ds : List Char) (point : Int) : List Char :=
  if point ≤ 0 then '0' :: '.' :: (List.replicate (-point).toNat '0' ++ ds)
  else
    let n := point.toNat
    if ds.length ≤ n then
      ds ++ List.replicate (n - ds.length) '0' ++ (if f.keepFraction then ['.', '0'] else [])
    else ds.take n ++ '.' :: ds.drop n

/-- One digit, the fraction if there is one, and a signed exponent. -/
def scientific (ds : List Char) (point : Int) : List Char :=
  let e := point - 1
  ds.take 1 ++ (if ds.length ≤ 1 then [] else '.' :: ds.drop 1) ++
    'e' :: (if e < 0 then '-' else '+') :: digits e.natAbs

def magnitude (f : FloatFormat) (significand : Nat) (exponent : Int) : List Char :=
  if significand = 0 then f.place ['0'] 1
  else
    let d := Decimal.shortest f.tie significand exponent
    let ds := digits d.coefficient
    let point := d.exponent + ds.length
    if f.positional point then f.place ds point else scientific ds point

/-- The text of a double in this format. -/
def text (f : FloatFormat) (x : Binary64) : String :=
  match x.shape with
  | .nan => "NaN"
  | .infinite negative => if negative then "-inf" else "inf"
  | .finite negative significand exponent =>
    String.ofList ((if negative then ['-'] else []) ++ f.magnitude significand exponent)

/-- Never an exponent, never a trailing `.0`. -/
def plain : FloatFormat := ⟨.up, fun _ => true, false⟩

/-- Positional with at least one decimal from `1e-5` up to below `1e16`. -/
def document : FloatFormat := ⟨.even, fun point => -4 ≤ point && point ≤ 16, true⟩

end FloatFormat

namespace Binary64

/-- A sign in front, `true` for minus. -/
def takeSign : List Char → Bool × List Char
  | '-' :: rest => (true, rest)
  | '+' :: rest => (false, rest)
  | cs => (false, cs)

/-- An optional exponent that ends the text. -/
def exponent? : List Char → Option Int
  | [] => some 0
  | c :: rest =>
    if c = 'e' ∨ c = 'E' then
      let (negative, ds) := takeSign rest
      if ds ≠ [] ∧ ds.all Char.isDigit then
        some (if negative then -(ofDigits ds : Int) else ofDigits ds)
      else none
    else none

/-- Reads a decimal number, rounded once. Digits may be missing on one side of the point;
infinities and `nan` are known in any case. -/
def parse? (s : String) : Option Binary64 :=
  let (negative, body) := takeSign s.toList
  let word := String.ofList (body.map Char.toLower)
  if word = "inf" ∨ word = "infinity" then some (infinity negative)
  else if word = "nan" then some nan
  else
    let whole := body.takeWhile Char.isDigit
    let rest := body.dropWhile Char.isDigit
    let (fraction, tail) :=
      match rest with
      | '.' :: more => (more.takeWhile Char.isDigit, more.dropWhile Char.isDigit)
      | _ => ([], rest)
    if whole = [] ∧ fraction = [] then none
    else
      (exponent? tail).map fun e =>
        ofDecimal negative (ofDigits (whole ++ fraction)) (e - fraction.length)

end Binary64
end BoundSql.Number
