/-!
# Coloured text

A style is switched on in front of a text and everything is switched off behind it. Where the
text itself switches everything off, the style is switched on again.
-/
namespace BoundSql.Command

/-- How a text stands out. -/
inductive Style where
  | white
  | cyan
  | yellow
  | dim
  | title
  | heading
  | alarm
deriving DecidableEq

namespace Style

/-- The codes of the style, bold before colour. -/
def codes : Style → String
  | .white => "37"
  | .cyan => "36"
  | .yellow => "33"
  | .dim => "2"
  | .title => "1;36"
  | .heading => "1;32"
  | .alarm => "1;31"

def on (s : Style) : List Char := "\x1b[".toList ++ s.codes.toList ++ ['m']

def off : List Char := "\x1b[0m".toList

/-- Switches the style on again after every `off`. -/
def resume (s : Style) : List Char → List Char
  | '\x1b' :: '[' :: '0' :: 'm' :: rest => off ++ s.on ++ resume s rest
  | c :: rest => c :: resume s rest
  | [] => []

/-- The text in this style, if colours are wanted at all. -/
def paint (color : Bool) (s : Style) (text : String) : String :=
  if color then String.ofList (s.on ++ s.resume text.toList ++ off) else text

end Style
end BoundSql.Command
