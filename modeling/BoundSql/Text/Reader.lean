/-!
# Readers

A reader takes one part of a text from its front.
-/
namespace BoundSql.Text

/-- Reads one part of a text, leaving the rest. -/
abbrev Reader (α : Type) := List Char → Option (α × List Char)

/-- The rest after a given character. -/
def expect (c : Char) : List Char → Option (List Char)
  | d :: rest => if d = c then some rest else none
  | [] => none

end BoundSql.Text
