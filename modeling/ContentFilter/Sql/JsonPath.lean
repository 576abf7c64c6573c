import ContentFilter.FieldPath
/-!
# JSON path texts

The texts of JSON paths and of the predicates over them, before they are quoted as SQL literals.
A path is a dollar sign and the keys behind dots; a key that is not a plain name stands in double
quotes.  A string inside a predicate stands in double quotes, with the quote, the backslash and
the three common control characters escaped.
-/

namespace ContentFilter
namespace JsonPath

open Text

/-- A key as it stands in a path. -/
def key (k : String) : String :=
  if isPlainName k.toList then k else "\"" ++ k ++ "\""

/-- The path along some keys. -/
def along (keys : List String) : String :=
  keys.foldl (fun path k => path ++ "." ++ key k) "$"

/-- The path to the value of a field, or to what its wildcard ranges over. -/
def container (f : FieldPath) : String := along f.keys

/-- The ending that a wildcard adds to a path. -/
def wildcard : Option Wildcard → String
  | none => ""
  | some .any => ".*"
  | some .element => "[*]"

/-- The path of a field, its wildcard included. -/
def ofField (f : FieldPath) : String := container f ++ wildcard f.wildcard

/-- The characters that stand for one character of a string. -/
def escape : Char → List Char
  | '\\' => ['\\', '\\']
  | '"' => ['\\', '"']
  | '\n' => ['\\', 'n']
  | '\r' => ['\\', 'r']
  | '\t' => ['\\', 't']
  | c => [c]

/-- A string as it stands in a predicate. -/
def quote (s : String) : String :=
  String.ofList ('"' :: s.toList.flatMap escape ++ ['"'])

end JsonPath
end ContentFilter
