import BoundSql.Command.Settings

/-!
# Command lines

A command line names a command and its file, with options before or after the command. An option
that takes a value has it in the same word or in the next one. Within either place an option may
stand once; of two values the one after the command counts. A lone `--` ends the options.
-/
namespace BoundSql.Command

/-- What is done with a document. -/
inductive Action where
  | compile
  | explain
deriving DecidableEq

/-- The options that stand on one side of the command. -/
structure Options where
  format : Option OutputFormat
  noColor : Bool
  verbose : Bool
  settings : Option String

/-- An option that takes a value. -/
inductive Valued where
  | format
  | settings
deriving DecidableEq

/-- Why a command line asks for no work: it asks about the program, or it is misused. -/
inductive Stop where
  | version
  | help
  | misuse
deriving DecidableEq

/-- What a command line asks for. -/
structure Invocation where
  action : Action
  file : String
  options : Options

namespace Options

def none : Options := ⟨.none, false, false, .none⟩

/-- Gives an option its value. No value may be empty and no option may stand twice. -/
def give (o : Options) (name : Valued) (value : String) : Except Stop Options :=
  match name with
  | .format =>
    match o.format, OutputFormat.ofName? value with
    | .none, some format => .ok { o with format }
    | _, _ => .error .misuse
  | .settings =>
    if o.settings.isNone ∧ value ≠ "" then .ok { o with settings := value } else .error .misuse

def giveNoColor (o : Options) : Except Stop Options :=
  if o.noColor then .error .misuse else .ok { o with noColor := true }

def giveVerbose (o : Options) : Except Stop Options :=
  if o.verbose then .error .misuse else .ok { o with verbose := true }

/-- Both sides of a command together. -/
def merge (outer inner : Options) : Options :=
  { format := inner.format.or outer.format
    noColor := outer.noColor || inner.noColor
    verbose := outer.verbose || inner.verbose
    settings := inner.settings.or outer.settings }

end Options

/-- A command line read up to some word. -/
structure Line where
  outer : Options
  action : Option Action
  inner : Options
  file : Option String
  waiting : Option Valued
  ended : Bool

namespace Line

def start : Line := ⟨.none, none, .none, none, none, false⟩

/-- Changes the options on the side of the command that is being read. -/
def onOptions (l : Line) (change : Options → Except Stop Options) : Except Stop Line :=
  if l.action.isSome then return { l with inner := ← change l.inner }
  else return { l with outer := ← change l.outer }

/-- The version can be asked for only before the command. -/
def askVersion (l : Line) : Except Stop Line :=
  .error (if l.action.isSome then .misuse else .version)

/-- An option by its long name, with the value that follows an equals sign. -/
def long (l : Line) (name : String) (value : Option String) : Except Stop Line :=
  let valued (option : Valued) : Except Stop Line :=
    match value with
    | some v => l.onOptions (·.give option v)
    | none => .ok { l with waiting := some option }
  if name = "format" then valued .format
  else if name = "config" then valued .settings
  else if value.isSome then .error .misuse
  else if name = "no-color" then l.onOptions Options.giveNoColor
  else if name = "verbose" then l.onOptions Options.giveVerbose
  else if name = "version" then l.askVersion
  else if name = "help" then .error .help
  else .error .misuse

/-- Options by their letters. The letter of an option with a value ends the run: what follows is
the value, with or without an equals sign. -/
def short (l : Line) : List Char → Except Stop Line
  | [] => .ok l
  | 'f' :: [] => .ok { l with waiting := some .format }
  | 'f' :: '=' :: value => l.onOptions (·.give .format (String.ofList value))
  | 'f' :: value => l.onOptions (·.give .format (String.ofList value))
  | 'v' :: rest => do short (← l.onOptions Options.giveVerbose) rest
  | 'V' :: _ => l.askVersion
  | 'h' :: _ => .error .help
  | _ => .error .misuse

/-- A word that is no option: the file of the command. -/
def positional (l : Line) (word : String) : Except Stop Line :=
  if l.action.isSome ∧ l.file.isNone ∧ word ≠ "" then .ok { l with file := word }
  else .error .misuse

def action? (word : String) : Option Action :=
  if word = "compile" then some .compile else if word = "explain" then some .explain else none

/-- One more word. A value that is waited for may not look like an option. -/
def read (l : Line) (word : String) : Except Stop Line :=
  if l.ended then l.positional word
  else
    match l.waiting, word.toList with
    | some option, '-' :: [] => { l with waiting := none }.onOptions (·.give option word)
    | some _, '-' :: _ => .error .misuse
    | some option, _ => { l with waiting := none }.onOptions (·.give option word)
    | none, '-' :: '-' :: [] => .ok { l with ended := true }
    | none, '-' :: '-' :: cs =>
      let name := cs.takeWhile (· ≠ '=')
      l.long (String.ofList name)
        (if name.length < cs.length then some (String.ofList (cs.drop (name.length + 1))) else none)
    | none, '-' :: c :: cs => l.short (c :: cs)
    | none, _ =>
      match l.action, action? word with
      | none, some action => .ok { l with action }
      | _, _ => l.positional word

/-- Words after `help` name the command that is asked about. -/
def askHelp (words : List String) : Stop :=
  match words with
  | [] => .help
  | [word] => if (action? word).isSome ∨ word = "help" then .help else .misuse
  | _ => .misuse

/-- All words from here on. -/
def readAll (l : Line) : List String → Except Stop Line
  | [] => .ok l
  | word :: rest =>
    if word = "help" ∧ l.action.isNone ∧ l.waiting.isNone ∧ !l.ended then .error (askHelp rest)
    else do readAll (← l.read word) rest

end Line

/-- The settings file that the environment names stands in where the command line names none, on
either side of the command; so an empty name is refused unless both sides name a file. -/
def Options.withEnvironment (outer inner : Options) (settings : Option String) :
    Except Stop Options :=
  let both := outer.settings.isSome && inner.settings.isSome
  if settings = some "" ∧ !both then .error .misuse
  else
    let o := outer.merge inner
    .ok { o with settings := o.settings.or (settings.filter (· ≠ "")) }

/-- What a command line asks for; `settings` is the file that the environment names. -/
def Invocation.parse (words : List String) (settings : Option String) : Except Stop Invocation := do
  let l ← Line.start.readAll words
  match l.action, l.file, l.waiting with
  | some action, some file, none =>
    return ⟨action, file, ← Options.withEnvironment l.outer l.inner settings⟩
  | _, _, _ => throw .misuse

end BoundSql.Command
