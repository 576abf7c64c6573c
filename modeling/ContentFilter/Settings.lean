import ContentFilter.Argument
/-!
# Settings of the command line

The arguments behind `compile` and `order` hold one text at most and options in any order.  An
option takes its value from its own argument, or from the next one if that is a text.  Only
builtins may be given more than once.

Arguments are read from left to right.  Between two of them a reading knows the settings so far,
the option whose value is awaited, and whether the options have ended.

The tool declares its options and leaves the reading to a package.  What is read follows the known
behaviour of the package and not its code; its options for help and for the version are left out.
-/

namespace ContentFilter

/-- An option that takes a value. -/
inductive Setting where
  | dialect
  | builtin
  | builtinsFile
  | stem
deriving DecidableEq, Repr

namespace Setting

/-- The option with a long name. -/
def ofName? (name : String) : Option Setting :=
  if name = "dialect" then some dialect
  else if name = "builtin" then some builtin
  else if name = "builtins" then some builtinsFile
  else if name = "prefix" then some stem
  else none

/-- The option with a letter. -/
def ofLetter? (c : Char) : Option Setting :=
  if c = 'd' then some dialect
  else if c = 'b' then some builtin
  else none

end Setting

/-- The options of `compile` and `order` as they are written. -/
structure Settings where
  /-- The text to compile, if it is an argument. -/
  text : Option String
  /-- The name of the dialect. -/
  dialect : Option String
  /-- Builtins, each given as `name=column`. -/
  builtins : List String
  /-- The name of the file with further builtins. -/
  builtinsFile : Option String
  /-- What the names of placeholders begin with. -/
  stem : Option String
  /-- Whether the output is spread over several lines. -/
  pretty : Bool
deriving DecidableEq, Repr

namespace Settings

/-- Nothing is set. -/
def empty : Settings := ⟨none, none, [], none, none, false⟩

/-- Set the value of an option, unless it has one that cannot be joined by another. -/
def put? (s : Settings) (value : String) : Setting → Option Settings
  | .dialect => if s.dialect.isSome then none else some { s with dialect := value }
  | .builtin => some { s with builtins := s.builtins ++ [value] }
  | .builtinsFile =>
    if s.builtinsFile.isSome then none else some { s with builtinsFile := value }
  | .stem => if s.stem.isSome then none else some { s with stem := value }

/-- Set the text, unless there is one. -/
def putText? (s : Settings) (text : String) : Option Settings :=
  if s.text.isSome then none else some { s with text := text }

/-- Ask for output over several lines, unless that has been done. -/
def putPretty? (s : Settings) : Option Settings :=
  if s.pretty then none else some { s with pretty := true }

end Settings

/-! ## Reading arguments -/

/-- Where the reading of the arguments stands. -/
structure Reading where
  settings : Settings
  /-- The option whose value is the next argument. -/
  awaited : Option Setting
  /-- Whether the options have ended. -/
  ended : Bool

namespace Reading

/-- The reading before the first argument. -/
def start : Reading := ⟨.empty, none, false⟩

/-- Take an option with the value that its argument carries, if any. -/
def take? (r : Reading) (option : Setting) : Option String → Option Reading
  | none => some { r with awaited := option }
  | some value => (r.settings.put? value option).map ({ r with settings := · })

/-- Take a group of short options.  What follows the letter of an option with a value is the
value, with or without an equals sign before it. -/
def takeLetters? (r : Reading) : List Char → Option Reading
  | [] => some r
  | c :: cs =>
    if c = 'p' then
      r.settings.putPretty?.bind fun s => takeLetters? { r with settings := s } cs
    else
      (Setting.ofLetter? c).bind fun option =>
        match cs with
        | [] => r.take? option none
        | '=' :: value => r.take? option (some (String.ofList value))
        | value => r.take? option (some (String.ofList value))

/-- Take an argument where none is awaited. -/
def takeArgument? (r : Reading) : Argument → Option Reading
  | .divider => some { r with ended := true }
  | .long name value =>
    if name = "pretty" then
      if value.isSome then none else r.settings.putPretty?.map ({ r with settings := · })
    else (Setting.ofName? name).bind fun option => r.take? option value
  | .short letters => r.takeLetters? letters
  | .text s => (r.settings.putText? s).map ({ r with settings := · })

/-- Take the next argument.  The value of an option has to be a text, and behind the end of the
options every argument is one. -/
def step? (r : Reading) (arg : String) : Option Reading :=
  if r.ended then r.takeArgument? (.text arg)
  else
    match r.awaited, Argument.ofString arg with
    | none, a => r.takeArgument? a
    | some option, .text value => { r with awaited := none }.take? option (some value)
    | some _, _ => none

end Reading

/-- The settings in a list of arguments. -/
def Settings.ofArguments? (args : List String) : Option Settings :=
  (args.foldlM Reading.step? .start).bind fun r =>
    if r.awaited.isSome then none else some r.settings

end ContentFilter
