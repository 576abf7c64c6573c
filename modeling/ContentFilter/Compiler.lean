import ContentFilter.Filter.Reader
import ContentFilter.OrderBy
import ContentFilter.Token.Bracketed
/-!
# The compiler

A compiler is set up for a dialect, with builtins and a stem for its placeholders.  It reads a
filter into nodes and writes them as SQL, binding the values either to a sink of its own, which
gives a fragment, or to one that the caller shares among several fragments.  Fragments that were
compiled apart are merged as long as they bind different names.
-/

namespace ContentFilter

/-- Why a compiler cannot be set up. -/
inductive SetupError where
  /-- No dialect has this name. -/
  | unknownDialect (name : String)
  /-- The text cannot be a stem of placeholder names. -/
  | invalidStem (name : String)
deriving DecidableEq, Repr

/-- The wording of a failed setup. -/
def SetupError.message : SetupError → String
  | unknownDialect name => "unknown dialect '" ++ name ++ "': use pgsql or sqlite"
  | invalidStem name =>
    "invalid parameter prefix '" ++ name ++ "': use letters, digits and underscores"

/-- The dialect of a name, or the complaint that there is none. -/
def Dialect.ofName (name : String) : Except SetupError Dialect :=
  match Dialect.ofName? name with
  | some d => .ok d
  | none => .error (.unknownDialect name)

/-- The stem of a name, or the complaint that it cannot be one. -/
def Stem.ofName (name : String) : Except SetupError Stem :=
  match Stem.ofName? name with
  | some stem => .ok stem
  | none => .error (.invalidStem name)

/-- A compiled filter: a condition in SQL and the values of its placeholders. -/
structure Fragment where
  /-- The condition. -/
  sql : String
  /-- The values, keyed by the names of the placeholders. -/
  params : Table Scalar
deriving Repr

/-- The name that two fragments both bind. -/
structure Collision where
  name : String
deriving DecidableEq, Repr

/-- The wording of a collision. -/
def Collision.message (c : Collision) : String :=
  "parameter collision: :" ++ c.name ++ " is bound by both fragments"

/-- The conjunction of two fragments, unless they bind the same name. -/
def Fragment.merge (a b : Fragment) : Except Collision Fragment :=
  match b.params.keys.find? a.params.contains with
  | some name => .error ⟨name⟩
  | none => .ok ⟨"(" ++ a.sql ++ ") AND (" ++ b.sql ++ ")", a.params.insertAll b.params.toList⟩

/-- What filters and order-by statements are compiled with. -/
structure Compiler where
  /-- The database that the SQL is for. -/
  dialect : Dialect
  /-- The names that stand for columns. -/
  builtins : Builtins
  /-- What the names of placeholders begin with. -/
  stem : Stem

namespace Compiler

/-- A compiler with the default stem. -/
def ofDialect (d : Dialect) (b : Builtins) : Compiler := ⟨d, b, .default⟩

/-- What the reading of conditions depends on. -/
def context (c : Compiler) : Context := ⟨c.dialect, c.builtins⟩

/-- Read a filter: cut it into tokens, fold its lists, and read the nodes. -/
def parse (c : Compiler) (query : String) : Except ParseError (List Node) := do
  let tokens ← Token.scan c.builtins query
  let tokens ← Token.foldLists query tokens
  Filter.nodes c.context query tokens

/-- The SQL of a filter, with its values bound to a given sink. -/
def compileInto (c : Compiler) (query : String) (sink : Sink) :
    Except ParseError (String × Sink) := do
  let nodes ← c.parse query
  return (Node.templateOf nodes).fill sink

/-- The SQL of a filter with the values of its placeholders. -/
def compile (c : Compiler) (query : String) : Except ParseError Fragment := do
  let (sql, sink) ← c.compileInto query (.ofStem c.stem)
  return ⟨sql, sink.values⟩

/-- The SQL of an order-by statement. -/
def order (c : Compiler) (statement : String) : Except ParseError String :=
  OrderBy.compile c.dialect c.builtins statement

end Compiler
end ContentFilter
