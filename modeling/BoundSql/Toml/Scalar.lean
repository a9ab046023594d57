import BoundSql.Calendar.Date
import BoundSql.Json.Token

/-!
# Scalars of settings files

Texts come in four kinds: with escapes or without, on one line or on several. Numbers, dates and
times are checked against their ranges, but no setting takes one, so their values are dropped.
Line ends are single line feeds here.
-/
namespace BoundSql.Toml

open Text (Reader expect)

/-- What may stand in a text or a comment: no control character but the tab. -/
def isPrintable (c : Char) : Bool :=
  c = '\t' || (0x20 ≤ c.toNat && c.toNat ≠ 0x7f)

/-! ## Texts -/

/-- The character that a run of hexadecimal digits names. -/
def scalarValue? (digits : List Char) : Option Char := do
  let n ← digits.foldlM (fun n c => (Json.hexValue? c).map (n * 16 + ·)) 0
  if h : n.isValidChar then some (Char.ofNatAux n h) else none

/-- What stands after a backslash. -/
def readEscape : Reader Char
  | c :: rest =>
    if c = 'b' then some ('\x08', rest)
    else if c = 't' then some ('\t', rest)
    else if c = 'n' then some ('\n', rest)
    else if c = 'f' then some ('\x0c', rest)
    else if c = 'r' then some ('\r', rest)
    else if c = '\x22' ∨ c = '\\' then some (c, rest)
    else if c = 'u' ∧ 4 ≤ rest.length then (scalarValue? (rest.take 4)).map (·, rest.drop 4)
    else if c = 'U' ∧ 8 ≤ rest.length then (scalarValue? (rest.take 8)).map (·, rest.drop 8)
    else none
  | [] => none

/-- White space that a backslash at the end of a line swallows. -/
def isGap (c : Char) : Bool := c = ' ' || c = '\t' || c = '\n'

/-- The rest after the gap that follows a backslash, if there is a line end in the gap. -/
def skipGap? (cs : List Char) : Option (List Char) :=
  if (cs.dropWhile fun c => c = ' ' || c = '\t').head? = some '\n' then
    some (cs.dropWhile isGap)
  else none

/-- How a text is written. -/
structure Style where
  mark : Char
  escapes : Bool
  lines : Bool

/-- The end of a text: its mark, or three of them. Of five marks the first two still belong to
the text, of four the first. -/
def readEnd (s : Style) (cs : List Char) : Option (List Char × List Char) :=
  let marks := (cs.takeWhile (· = s.mark)).length
  if s.lines then
    if marks < 3 then none
    else
      let inside := min (marks - 3) 2
      some (List.replicate inside s.mark, cs.drop (inside + 3))
  else if marks = 0 then none
  else some ([], cs.drop 1)

/-- Reads a text up to its end. -/
def readText (s : Style) : Nat → Reader (List Char)
  | 0, _ => none
  | fuel + 1, cs =>
    match readEnd s cs with
    | some found => some found
    | none =>
      match cs with
      | [] => none
      | c :: rest =>
        let next (before : List Char) (rest : List Char) : Option (List Char × List Char) :=
          (readText s fuel rest).map fun (text, rest) => (before ++ text, rest)
        if c = '\\' ∧ s.escapes then
          match (if s.lines then skipGap? rest else none) with
          | some rest => next [] rest
          | none =>
            match readEscape rest with
            | some (c, rest) => next [c] rest
            | none => none
        else if isPrintable c ∨ (c = '\n' ∧ s.lines) then next [c] rest
        else none

/-- Reads a text that begins with its mark. A line end right after three marks is not part of
the text. -/
def string (mark : Char) : Reader String := fun cs => do
  let escapes : Bool := mark = '\x22'
  let lines : Bool := cs.take 3 = [mark, mark, mark]
  let body := cs.drop (if lines then 3 else 1)
  let body := if lines ∧ body.head? = some '\n' then body.drop 1 else body
  let (text, rest) ← readText ⟨mark, escapes, lines⟩ (body.length + 1) body
  return (String.ofList text, rest)

/-- Reads a text on one line. -/
def lineString (mark : Char) : Reader String := fun cs => do
  let body := cs.drop 1
  let (text, rest) ← readText ⟨mark, mark = '\x22', false⟩ (body.length + 1) body
  return (String.ofList text, rest)

/-! ## Dates and times -/

/-- Exactly so many digits, for a number in a range. -/
def fixed (width low high : Nat) : Reader Nat := fun cs =>
  let (run, rest) := Number.takeDigits width cs
  let n := Number.ofDigits run
  if run.length = width ∧ low ≤ n ∧ n ≤ high then some (n, rest) else none

/-- The rest after a time of a day; seconds are needed. -/
def skipTime? (cs : List Char) : Option (List Char) := do
  let (_, cs) ← fixed 2 0 23 cs
  let cs ← expect ':' cs
  let (_, cs) ← fixed 2 0 59 cs
  let cs ← expect ':' cs
  let (_, cs) ← fixed 2 0 60 cs
  match cs with
  | '.' :: c :: rest => return if c.isDigit then rest.dropWhile Char.isDigit else cs
  | _ => return cs

/-- The rest after a zone, or the whole where there is none. -/
def skipZone? (cs : List Char) : Option (List Char) :=
  match cs with
  | c :: rest =>
    if c = 'Z' ∨ c = 'z' then some rest
    else if c = '+' ∨ c = '-' then do
      let (_, cs) ← fixed 2 0 23 rest
      let cs ← expect ':' cs
      let (_, cs) ← fixed 2 0 59 cs
      return cs
    else some cs
  | [] => some []

/-- The rest after a date, with a time behind it if there is one. -/
def skipDate? (cs : List Char) : Option (List Char) := do
  let (year, cs) ← fixed 4 0 9999 cs
  let cs ← expect '-' cs
  let (month, cs) ← fixed 2 1 12 cs
  let cs ← expect '-' cs
  let (_, cs) ← fixed 2 1 (Calendar.daysInMonth year month) cs
  let time := do
    let c :: rest := cs | none
    if c = 'T' ∨ c = 't' ∨ c = ' ' then skipZone? (← skipTime? rest) else none
  return time.getD cs

/-! ## Numbers -/

/-- Digits of which any two may have an underscore between them. -/
def digitRun (isDigit : Char → Bool) : List Char → List Char × List Char
  | '_' :: c :: rest =>
    if isDigit c then
      let (run, rest) := digitRun isDigit rest
      (c :: run, rest)
    else ([], '_' :: c :: rest)
  | c :: rest =>
    if isDigit c then
      let (run, rest) := digitRun isDigit rest
      (c :: run, rest)
    else ([], c :: rest)
  | [] => ([], [])

/-- A run that begins with a digit. -/
def digitRun? (isDigit : Char → Bool) : Reader (List Char)
  | c :: rest => if isDigit c then some (digitRun isDigit (c :: rest)) else none
  | [] => none

/-- The sign and the digits of a decimal integer; a zero in front stands alone. -/
def decimal? (cs : List Char) : Option (Bool × List Char × List Char) := do
  let (negative, cs) := Number.Binary64.takeSign cs
  match cs with
  | '0' :: rest => return (negative, ['0'], rest)
  | _ =>
    let (run, rest) ← digitRun? Char.isDigit cs
    return (negative, run, rest)

/-- The fraction behind a point. -/
def fraction? : List Char → Option (List Char × List Char)
  | '.' :: rest => digitRun? Char.isDigit rest
  | _ => none

/-- The exponent behind its letter. -/
def exponent? : List Char → Option (Int × List Char)
  | c :: rest =>
    if c = 'e' ∨ c = 'E' then do
      let (negative, cs) := Number.Binary64.takeSign rest
      let (run, rest) ← digitRun? Char.isDigit cs
      let n : Int := Number.ofDigits run
      return (if negative then -n else n, rest)
    else none
  | [] => none

/-- The rest after a number with a fraction or an exponent that is not beyond all doubles. -/
def skipFloat? (cs : List Char) : Option (List Char) := do
  let (negative, whole, rest) ← decimal? cs
  let (fraction, exponent, rest) ←
    match fraction? rest with
    | some (fraction, rest) =>
      let (exponent, rest) := (exponent? rest).getD (0, rest)
      some (fraction, exponent, rest)
    | none => (exponent? rest).map fun (exponent, rest) => ([], exponent, rest)
  let x := Number.Binary64.ofDecimal negative (Number.ofDigits (whole ++ fraction))
    (exponent - fraction.length)
  if x = .infinity false then none else some rest

/-- The rest after an infinity or a `nan`. -/
def skipSpecial? (cs : List Char) : Option (List Char) :=
  let (_, cs) := Number.Binary64.takeSign cs
  if cs.take 3 = "inf".toList ∨ cs.take 3 = "nan".toList then some (cs.drop 3) else none

/-- The rest after an integer in another base, of 63 bits at most. -/
def skipBased? (base : Nat) (isDigit : Char → Bool) (cs : List Char) : Option (List Char) := do
  let (run, rest) ← digitRun? isDigit cs
  let n := run.foldl (fun n c => n * base + (Json.hexValue? c).getD 0) 0
  if n < 0x8000000000000000 then some rest else none

/-- The rest after an integer of 64 bits. -/
def skipInteger? (cs : List Char) : Option (List Char) :=
  match cs with
  | '0' :: 'x' :: rest => skipBased? 16 (fun c => (Json.hexValue? c).isSome) rest
  | '0' :: 'o' :: rest => skipBased? 8 (fun c => '0' ≤ c && c ≤ '7') rest
  | '0' :: 'b' :: rest => skipBased? 2 (fun c => c = '0' || c = '1') rest
  | _ => do
    let (negative, run, rest) ← decimal? cs
    let n := Number.ofDigits run
    if n < 0x8000000000000000 ∨ (negative ∧ n = 0x8000000000000000) then some rest else none

/-- The rest after a number, a date or a time. -/
def skipMeasure? (cs : List Char) : Option (List Char) :=
  skipDate? cs <|> skipTime? cs <|> skipFloat? cs <|> skipSpecial? cs <|> skipInteger? cs

end BoundSql.Toml
