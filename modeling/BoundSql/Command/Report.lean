import BoundSql.Command.Arguments
import BoundSql.Command.Style
import BoundSql.Json.Printer
import BoundSql.Query

/-!
# Reports

What the two commands print about a compiled statement, as text for a reader or as indented JSON
for a program. In the JSON of an explanation the members of every object are sorted by name.
-/
namespace BoundSql.Command

def lines (ls : List String) : String := String.join (ls.map (· ++ "\n"))

/-- The bindings, numbered from one. -/
def bindingLines (color : Bool) : Nat → List Value → List String
  | _, [] => []
  | n, v :: rest =>
    ("  " ++ Style.dim.paint color ("?" ++ Number.natText n) ++ " = " ++
      Style.yellow.paint color v.text) :: bindingLines color (n + 1) rest

/-- The bindings under their heading, set off by an empty line; nothing if there are none. -/
def bindingsBlock (color : Bool) (bindings : List Value) : List String :=
  if bindings.isEmpty then []
  else "" :: Style.cyan.paint color "Bindings:" :: bindingLines color 1 bindings

/-- The statement and its bindings. -/
def compiledText (color : Bool) (f : Fragment) : String :=
  lines (Style.white.paint color f.text :: bindingsBlock color f.bindings)

def compiledJson (f : Fragment) : String := lines [f.toJson.pretty]

/-- What kind of statement it is, about which table and with how many values, and the
statement. -/
def explainedText (color : Bool) (q : Query) (f : Fragment) : String :=
  let label := Style.dim.paint color
  lines
    ([Style.title.paint color "Query Explanation", "",
      "  " ++ label "Kind:" ++ " " ++ Style.cyan.paint color q.kind,
      "  " ++ label "Table:" ++ " " ++ Style.white.paint color (q.table.getD "-"),
      "  " ++ label "Params:" ++ " " ++ Number.natText f.placeholderCount ++ " placeholder(s), " ++
        Number.natText f.bindings.length ++ " binding(s)",
      "", Style.heading.paint color "Generated SQL:",
      "  " ++ Style.white.paint color f.text] ++ bindingsBlock color f.bindings)

/-- A number of placeholders in JSON. -/
def countJson (n : Nat) : Json := .ofUInt64 (UInt64.ofNat n)

def explainedJson (q : Query) (f : Fragment) : String :=
  lines [(Json.object
    [("kind", .string q.kind), ("placeholders", countJson f.placeholderCount),
      ("sql", .object
        [("bindings", .ofList Value.toJson f.bindings), ("expression", .string f.text)]),
      ("table", .ofString? q.table)]).pretty]

/-- What a command prints about a statement. -/
def report (action : Action) (settings : Settings) (q : Query) (f : Fragment) : String :=
  match action, settings.format with
  | .compile, .text => compiledText settings.color f
  | .compile, .json => compiledJson f
  | .explain, .text => explainedText settings.color q f
  | .explain, .json => explainedJson q f

end BoundSql.Command
