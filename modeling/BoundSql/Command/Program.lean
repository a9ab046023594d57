import BoundSql.Command.Report

/-!
# The program

The program loads its settings, lets the command line override them, reads a document, and prints
a report of the statement in it. It knows its surroundings only through a `Host`, so it runs in
any monad that can read files.
-/
namespace BoundSql.Command

/-- What surrounds the program. -/
structure Host (m : Type → Type) where
  environment : String → m (Option String)
  contentOf : String → m Content
  input : m Content

/-- How a run ends. -/
structure Outcome where
  code : UInt32
  output : String
  errors : String

namespace Outcome

def success (output : String) : Outcome := ⟨0, output, ""⟩

/-- A failure with its causes, the general one first. -/
def failure (color : Bool) (causes : List String) : Outcome :=
  ⟨1, "", Style.alarm.paint color "Error:" ++ " " ++ String.intercalate ": " causes ++ "\n"⟩

/-- Puts a note in front of the errors. -/
def noting (o : Outcome) (note : String) : Outcome := { o with errors := note ++ "\n" ++ o.errors }

end Outcome

def versionText : String := "orm-sql 0.3.0\n"

def usageText : String :=
  lines ["Usage: orm-sql [OPTIONS] compile <FILE>", "       orm-sql [OPTIONS] explain <FILE>", "",
    "  -f, --format <text|json>", "      --no-color", "  -v, --verbose",
    "      --config <FILE>", "  -h, --help", "  -V, --version"]

/-- How a run ends that asks for no work. -/
def Stop.outcome : Stop → Outcome
  | .version => .success versionText
  | .help => .success usageText
  | .misuse => ⟨2, "", usageText⟩

/-- The settings file of a user who names none: under the directory for settings, which has to be
absolute, or else under the home directory. -/
def settingsPath? (directory home : Option String) : Option String :=
  let base :=
    match directory.filter (·.startsWith "/") with
    | some d => some d
    | none => (home.filter (· ≠ "")).map (· ++ "/.config")
  base.map (· ++ "/orm-sql/config.toml")

/-- Why the settings cannot be had. -/
def settingsCause : Settings.Fault → String
  | .unreadable => "IO error"
  | .malformed => "Configuration error"

/-- The settings after the options of the command line. -/
def Options.apply (o : Options) (s : Settings) : Settings :=
  { format := o.format.getD s.format
    color := s.color && !o.noColor
    verbose := s.verbose || o.verbose }

/-- Reports on the document that has been read from `place`. -/
def Invocation.answer (i : Invocation) (settings : Settings) (place : String) (document : Content) :
    Outcome :=
  let fail := Outcome.failure settings.color
  match document.text? with
  | .error reason => fail ["failed to read " ++ place, reason]
  | .ok text =>
    let outcome :=
      match Query.parse? text with
      | none => fail ["invalid query document", "JSON error"]
      | some q =>
        match q.sql .mysql with
        | .error e => fail ["failed to compile query", e.message]
        | .ok f => .success (report i.action settings q f)
    if settings.verbose then
      outcome.noting ("loaded " ++ Number.natText text.utf8ByteSize ++ " bytes of query document")
    else outcome

section
variable {m : Type → Type} [Monad m]

/-- The settings file of an invocation, if there is one to look for. -/
def Host.readSettings (host : Host m) (i : Invocation) : m Content := do
  match i.options.settings with
  | some path => host.contentOf path
  | none =>
    match settingsPath? (← host.environment "XDG_CONFIG_HOME") (← host.environment "HOME") with
    | some path => host.contentOf path
    | none => return .missing

/-- Does what an invocation asks for. Without settings there is no say on colours, so none are
used. -/
def Host.serve (host : Host m) (i : Invocation) : m Outcome := do
  match Settings.load (← host.readSettings i) with
  | .error fault => return .failure false ["failed to load configuration", settingsCause fault]
  | .ok settings =>
    let settings := i.options.apply settings
    if i.file = "-" then return i.answer settings "stdin" (← host.input)
    else return i.answer settings i.file (← host.contentOf i.file)

/-- Runs the program on the words of a command line. -/
def Host.run (host : Host m) (words : List String) : m Outcome := do
  match Invocation.parse words (← host.environment "ORM_SQL_CONFIG") with
  | .error stop => return stop.outcome
  | .ok i => host.serve i

end
end BoundSql.Command
