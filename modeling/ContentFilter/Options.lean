import ContentFilter.Compiler
import ContentFilter.Json.Read
import ContentFilter.Manual
/-!
# Compiler options

The options of the command line tool set up a compiler.  They are looked at in a fixed order, and
the first one that is wrong is reported: the dialect, the JSON object with builtins, the builtins
given one by one, and the stem of the placeholders.  A builtin given by itself replaces one from
the JSON object.

What is compiled is given as JSON.  A bound number becomes a JSON number only if no digit of its
value is lost, and otherwise a JSON string with its text.
-/

namespace ContentFilter

/-- Why a file cannot be read. -/
inductive FileError where
  /-- There is no file with the name. -/
  | missing
  /-- Reading the file is not allowed. -/
  | denied
  /-- The name leads through something that is not a directory. -/
  | notDirectory
  /-- The name is that of a directory. -/
  | directory
  /-- The name has too many characters. -/
  | nameTooLong
  /-- What the file holds is not a text. -/
  | notText
  /-- Any other failure, by the words of the operating system. -/
  | other (words : String)
deriving DecidableEq, Repr

/-- The wording of a failure to read a file: that of the operating system with its number, if the
failure is one of the system. -/
def FileError.message : FileError → String
  | missing => "No such file or directory (os error 2)"
  | denied => "Permission denied (os error 13)"
  | notDirectory => "Not a directory (os error 20)"
  | directory => "Is a directory (os error 21)"
  | nameTooLong => "File name too long (os error 36)"
  | notText => "stream did not contain valid UTF-8"
  | other words => words

/-- Why the command line tool fails. -/
inductive CommandError where
  /-- The filter or the order-by statement is refused. -/
  | refused (error : ParseError)
  /-- The compiler cannot be set up. -/
  | setup (error : SetupError)
  /-- The text with the builtins is not written in JSON. -/
  | invalidJson {text : String}
  /-- A builtin is not given as a name and a column. -/
  | invalidBuiltin (text : String)
  /-- The manual has no such page. -/
  | unknownPage (name : String)
  /-- The file with the builtins cannot be read. -/
  | unreadable (error : FileError)
  /-- There is neither an argument nor an input to read. -/
  | noInput
deriving DecidableEq, Repr

namespace CommandError

/-- The wording of a failure.  What a JSON reader says of a text that it refuses is left open. -/
def message (e : CommandError) (jsonWords : String → String := fun _ => "") : String :=
  match e with
  | refused e => "Parse error: " ++ e.text
  | setup e => "Configuration error: " ++ e.message
  | @invalidJson text => "Invalid JSON: " ++ jsonWords text
  | invalidBuiltin text => "Invalid builtin '" ++ text ++ "': use name=column"
  | unknownPage name =>
    "Unknown category: '" ++ name ++ "'\nRun 'cmsfilter docs' to see available categories."
  | unreadable e => "IO error: " ++ e.message
  | noInput => "No query provided. Pass it as an argument or pipe it to stdin."

/-- Whether the failure is due to the query, as opposed to the options. -/
def isQueryError : CommandError → Bool
  | refused _ => true
  | _ => false

end CommandError

/-! ## Builtins -/

namespace Builtins

/-- A name and a column from a member of a JSON object. -/
def ofMember (name : String) : Json → Except CommandError (String × String)
  | .string column => .ok (name, column)
  | v => .error (.invalidBuiltin (name ++ "=" ++ v.text .compact))

/-- The builtins in the text of a JSON object. -/
def ofJson (text : String) : Except CommandError Builtins :=
  match Json.read? text with
  | none => .error (@CommandError.invalidJson text)
  | some (.object members) => do
    let entries ← members.mapM fun m => ofMember m.1 m.2
    return Table.ofList entries
  | some _ => .error (.invalidBuiltin "expected a JSON object of name -> column")

/-- The name and the column of a builtin given as `name=column`: what stands before and behind
the first equals sign, without the blanks around it, which must not be all there is. -/
def ofSpec (spec : String) : Except CommandError (String × String) :=
  let cs := spec.toList
  let name := Text.trim (cs.takeWhile (· ≠ '='))
  match cs.dropWhile (· ≠ '=') with
  | [] => .error (.invalidBuiltin spec)
  | _ :: r =>
    let column := Text.trim r
    if name.isEmpty || column.isEmpty then .error (.invalidBuiltin spec)
    else .ok (String.ofList name, String.ofList column)

/-- Builtins given one by one, added to those there are. -/
def addSpecs (b : Builtins) (specs : List String) : Except CommandError Builtins := do
  let entries ← specs.mapM ofSpec
  return b.insertAll entries

end Builtins

/-! ## Options -/

/-- The options that set up a compiler. -/
structure Options where
  /-- The name of the dialect. -/
  dialect : String
  /-- Builtins, each given as `name=column`. -/
  builtins : List String
  /-- The text of a JSON object with further builtins. -/
  builtinsJson : Option String
  /-- What the names of placeholders begin with. -/
  stem : Option String
deriving Repr

namespace Options

/-- The builtins in the JSON text, if there is one. -/
def jsonBuiltins (o : Options) : Except CommandError Builtins :=
  match o.builtinsJson with
  | some text => Builtins.ofJson text
  | none => .ok .empty

/-- The compiler that the options set up. -/
def compiler (o : Options) : Except CommandError Compiler := do
  let dialect ← (Dialect.ofName o.dialect).mapError .setup
  let builtins ← o.jsonBuiltins
  let builtins ← Builtins.addSpecs builtins o.builtins
  match o.stem with
  | none => return .ofDialect dialect builtins
  | some name =>
    let stem ← (Stem.ofName name).mapError .setup
    return ⟨dialect, builtins, stem⟩

end Options

/-! ## Output -/

/-- Whether an integer fits in 64 bits with a sign. -/
def fitsInt64 (i : Int) : Bool :=
  -9223372036854775808 ≤ i && i ≤ 9223372036854775807

/-- A number as JSON, if a JSON number carries it: an integer in the range of 64 bits, or a
fraction that is the shortest decimal of a floating point number, the greater one where two are
equally near.  The text of the JSON number takes the even one of those two. -/
def Scalar.numberJson? (text : String) : Option Json := do
  let d ← Decimal.ofText? text
  if (Scalar.number text).isInteger then
    if fitsInt64 d.mantissa then return .integer d.mantissa else none
  else
    let x := d.toBinary64
    if (x.shortest .up).equals d then return .float (d.mantissa < 0) x else none

/-- A bound value as JSON. -/
def Scalar.json : Scalar → Json
  | boolean b => .bool b
  | string s => .string s
  | number n => (numberJson? n).getD (.string n)

/-- A fragment as JSON: its SQL and its parameters. -/
def Fragment.json (f : Fragment) : Json :=
  .ofMembers
    [("sql", .string f.sql),
      ("params", .ofMembers (f.params.toList.map fun e => (e.1, e.2.json)))]

namespace Options

/-- A filter compiled to JSON. -/
def compile (o : Options) (query : String) : Except CommandError Json := do
  let c ← o.compiler
  let fragment ← (c.compile query).mapError .refused
  return fragment.json

/-- An order-by statement compiled to SQL. -/
def order (o : Options) (statement : String) : Except CommandError String := do
  let c ← o.compiler
  (c.order statement).mapError .refused

end Options

/-- The page of the manual with a name. -/
def Page.ofName (name : String) : Except CommandError Page :=
  match Page.ofName? name with
  | some page => .ok page
  | none => .error (.unknownPage name)

end ContentFilter
