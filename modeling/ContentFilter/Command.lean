import ContentFilter.Options
import ContentFilter.Settings
/-!
# The command line

A command is read from the arguments: `compile` and `order` with an optional text and options,
`docs`, and `doc` with the name of a page.  Running it is a function of what surrounds it, which
is the environment, the standard input and the files, and gives an exit code and two output
texts.  The exit code tells refused queries from all other failures.

The text comes first: without an argument it is read from the standard input, whose trailing
blanks are dropped.  Then the file with the builtins is read, and then the options are looked at.

Two things of the tool are left out.  It keeps a log, which a variable of the environment turns on
and which goes to the standard error output; outcomes are those without it, as is the default.  And
the package that reads its arguments knows `--help`, `--version` and the command `help`, which print
a text with exit code 0; here they are usage errors, and the wording of usage errors is not that of
the package (`Command.usage`).
-/

namespace ContentFilter

/-- What a command is run in. -/
structure Surroundings where
  /-- The environment variables. -/
  env : String → Option String
  /-- The text on the standard input, unless that is a terminal. -/
  input : Option String
  /-- The text of the file with a name, or why it cannot be read. -/
  file : String → Except FileError String
  /-- What the JSON reader says of a text that it refuses. -/
  jsonWords : String → String := fun _ => ""

/-- What a command leaves behind. -/
structure Outcome where
  /-- The exit code. -/
  exitCode : Nat
  /-- What is written to the standard output. -/
  output : String
  /-- What is written to the standard error output. -/
  errors : String
deriving DecidableEq, Repr

/-- What the tool is asked to do. -/
inductive Command where
  | compile (settings : Settings)
  | order (settings : Settings)
  | overview
  | page (name : String)
deriving Repr

namespace Settings

/-- The text to compile: the argument, or else the standard input without the blanks at its
end. -/
def source (s : Settings) (w : Surroundings) : Except CommandError String :=
  match s.text, w.input with
  | some text, _ => .ok text
  | none, some input => .ok (String.ofList (Text.trimEnd input.toList))
  | none, none => .error .noInput

/-- The text of the file with builtins, if one is named. -/
def builtinsText (s : Settings) (w : Surroundings) : Except CommandError (Option String) :=
  match s.builtinsFile with
  | none => .ok none
  | some name =>
    match w.file name with
    | .ok text => .ok (some text)
    | .error e => .error (.unreadable e)

/-- The options, with the environment in place of those that are not set. -/
def options (s : Settings) (w : Surroundings) : Except CommandError Options := do
  let json ← s.builtinsText w
  return {
    dialect := (s.dialect.or (w.env "CMSFILTER_DIALECT")).getD "pgsql"
    builtins := s.builtins
    builtinsJson := json
    stem := s.stem.or (w.env "CMSFILTER_PREFIX") }

end Settings

namespace Command

/-- The command that the arguments ask for.  An order-by statement is always written on one
line, and the commands of the manual have no options. -/
def read? : List String → Option Command
  | "compile" :: r => (Settings.ofArguments? r).map compile
  | "order" :: r => ((Settings.ofArguments? r).filter fun s => !s.pretty).map order
  | "docs" :: r =>
    match Argument.texts? r with
    | some [] => some overview
    | _ => none
  | "doc" :: r =>
    match Argument.texts? r with
    | some [name] => some (page name)
    | _ => none
  | _ => none

/-- The settings of a command, if it has any. -/
def settings? : Command → Option Settings
  | compile s | order s => some s
  | overview | page _ => none

/-- What a command writes to the standard output, or why it fails. -/
def answer (w : Surroundings) : Command → Except CommandError String
  | compile s => do
    let query ← s.source w
    let options ← s.options w
    let json ← options.compile query
    return json.text (if s.pretty then .pretty else .compact) ++ "\n"
  | order s => do
    let statement ← s.source w
    let options ← s.options w
    let sql ← options.order statement
    return sql ++ "\n"
  | overview => .ok Manual.overview
  | page name => (Page.ofName name).map Manual.text

/-- Run a command. -/
def run (w : Surroundings) (c : Command) : Outcome :=
  match c.answer w with
  | .ok output => ⟨0, output, ""⟩
  | .error e => ⟨if e.isQueryError then 2 else 1, "", e.message w.jsonWords ++ "\n"⟩

/-- How the tool is used, in short.  The tool has longer texts for this, of its package. -/
def usage : String :=
  "Usage: cmsfilter <compile [QUERY] | order [STATEMENT] | docs | doc <CATEGORY>> [OPTIONS]\n"

/-- Run the command that the arguments ask for. -/
def runArgs (w : Surroundings) (args : List String) : Outcome :=
  match read? args with
  | some c => c.run w
  | none => ⟨2, "", usage⟩

end Command
end ContentFilter
