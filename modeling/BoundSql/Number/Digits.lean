/-!
# Decimal digits

Numbers are written in decimal without leading zeros, or padded with zeros to a width. A run
of digits is read back by position.
-/
namespace BoundSql.Number

/-- The power `2 ^ n`. -/
def twoTo (n : Nat) : Nat := Nat.pow 2 n

/-- The power `10 ^ n`. -/
def tenTo (n : Nat) : Nat := Nat.pow 10 n

/-- Decimal digits without leading zeros; zero is `0`. -/
def digits (n : Nat) : List Char := Nat.toDigits 10 n

/-- Decimal digits with zeros in front up to a width. -/
def padded (width n : Nat) : List Char :=
  List.replicate (width - (digits n).length) '0' ++ digits n

/-- Decimal text of a natural number. -/
def natText (n : Nat) : String := String.ofList (digits n)

/-- Decimal text of an integer, with `-` in front of a negative one. -/
def intText (n : Int) : String :=
  if n < 0 then "-" ++ natText n.natAbs else natText n.natAbs

/-- The number that a run of digits stands for. -/
def ofDigits (cs : List Char) : Nat := Nat.ofDigitChars 10 cs 0

/-- The longest run of digits at the front, at most `limit` of them, and the rest. -/
def takeDigits (limit : Nat) (cs : List Char) : List Char × List Char :=
  let run := (cs.take limit).takeWhile Char.isDigit
  (run, cs.drop run.length)

@[simp] theorem ofDigits_digits (n : Nat) : ofDigits (digits n) = n := by
  simp [ofDigits, digits, Nat.ofDigitChars_ten_toDigits]

end BoundSql.Number
