/-!
# Blank names

A name is blank when nothing but white space is in it. White space is Unicode's
`White_Space` property: the no-break space and the ideographic space belong to it, the
zero-width space and the byte order mark do not.
-/
namespace BoundSql.Text

/-- The characters with Unicode's `White_Space` property. -/
def isSpace (c : Char) : Bool :=
  let n := c.toNat
  (9 ≤ n && n ≤ 13) || n == 0x20 || n == 0x85 || n == 0xa0 || n == 0x1680 ||
    (0x2000 ≤ n && n ≤ 0x200a) || n == 0x2028 || n == 0x2029 || n == 0x202f ||
    n == 0x205f || n == 0x3000

/-- Only white space, or nothing at all. -/
def isBlank (s : String) : Bool := s.toList.all isSpace

/-- Drops the white space at the start. -/
def trimStart (cs : List Char) : List Char := cs.dropWhile isSpace

/-- Drops the white space at both ends. -/
def trim (s : String) : String :=
  String.ofList (trimStart (trimStart s.toList).reverse).reverse

theorem trimStart_head {cs rest : List Char} {c : Char} (h : trimStart cs = c :: rest) :
    isSpace c = false := by
  induction cs with
  | nil => simp [trimStart] at h
  | cons d ds ih =>
    by_cases hd : isSpace d = true
    · exact ih (by simpa [trimStart, hd] using h)
    · simp [trimStart, hd] at h
      simp [← h.1, hd]

end BoundSql.Text
