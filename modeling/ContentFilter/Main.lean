import ContentFilter.Command
/-!
# The command line tool

The outer layer: it gathers the arguments, the environment, the standard input and the file that
is named, runs the command, and writes what it leaves behind.  It keeps no log, and has no words of
its own for a text that is not JSON.
-/

open ContentFilter

/-- The text of a file, or why it cannot be read. -/
def readFile (name : String) : IO (Except FileError String) := do
  try
    let bytes ← IO.FS.readBinFile name
    match String.fromUTF8? bytes with
    | some text => return .ok text
    | none => return .error .notText
  catch e =>
    match e with
    | .noFileOrDirectory _ _ _ => return .error .missing
    | .permissionDenied _ _ _ => return .error .denied
    | .inappropriateType none _ _ => return .error .directory
    | .inappropriateType (some _) _ _ => return .error .notDirectory
    -- the error number of a name that is too long is 36, and it is given with its sign reversed
    | .invalidArgument _ 4294967260 _ => return .error .nameTooLong
    | e => return .error (.other (toString e))

/-- The text on the standard input, unless that is a terminal. -/
def readInput? : IO (Option String) := do
  let stdin ← IO.getStdin
  if ← stdin.isTty then
    return none
  let text ← stdin.readToEnd
  return some text

/-- Run the tool. -/
def main (args : List String) : IO UInt32 := do
  let dialect ← IO.getEnv "CMSFILTER_DIALECT"
  let stem ← IO.getEnv "CMSFILTER_PREFIX"
  let settings := (Command.read? args).bind Command.settings?
  let input ← match settings with
    | some s => if s.text.isSome then pure none else readInput?
    | none => pure none
  let file ← match settings.bind Settings.builtinsFile with
    | some name => readFile name
    | none => pure (.error .missing)
  let surroundings : Surroundings := {
    env := fun name =>
      if name = "CMSFILTER_DIALECT" then dialect
      else if name = "CMSFILTER_PREFIX" then stem
      else none
    input := input
    file := fun _ => file }
  let outcome := Command.runArgs surroundings args
  IO.print outcome.output
  IO.eprint outcome.errors
  return outcome.exitCode.toUInt32
