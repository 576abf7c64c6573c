import ContentFilter.Operator
import ContentFilter.Sql.JsonPath
import ContentFilter.Sql.Template
/-!
# Dialects

What the two databases write differently.  The content of a node is the column `content` of the
table with the alias `n`: a JSONB value in PostgreSQL, a JSON text in SQLite.  PostgreSQL reaches
into it with arrow operators and JSON path predicates, SQLite with its JSON functions; both quote
keys and paths as SQL literals.  SQLite matches regular expressions by the operator `REGEXP` and,
without regard to case, by a function `regexp_i`.
-/

namespace ContentFilter

/-- The databases that SQL is written for. -/
inductive Dialect where
  | postgres
  | sqlite
deriving DecidableEq, Repr

/-- A text with its ASCII letters in lower case. -/
def lowerCase (s : String) : String := String.ofList (s.toList.map Char.toLower)

namespace Dialect

/-- The name of the driver of a dialect. -/
def name : Dialect → String
  | postgres => "pgsql"
  | sqlite => "sqlite"

/-- The dialect that a name of a database or of its driver stands for, in any case. -/
def ofName? (name : String) : Option Dialect :=
  let lower := lowerCase name
  if ["pgsql", "postgres", "postgresql", "pg"].contains lower then some postgres
  else if ["sqlite", "sqlite3"].contains lower then some sqlite
  else none

/-- The qualified name of a table. -/
def table : Dialect → String → String
  | postgres, t => "cms." ++ t
  | sqlite, t => "cms_" ++ t

/-- The current time. -/
def now : Dialect → String
  | postgres | sqlite => "NOW()"

/-- Arrows along some keys, the last of them written as given. -/
def arrows (last : String) : List String → Template
  | [] => []
  | [k] => [.code last, .literal k]
  | k :: l :: r => .code "->" :: .literal k :: arrows last (l :: r)

/-- A call of a function on the content of the node with one literal. -/
def contentCall (function literal : String) : Template :=
  [.code (function ++ "(n.content, "), .literal literal, .code ")"]

/-- The value of a field as SQL text; in SQLite as the SQL value that it is.  A wildcard is
disregarded. -/
def extractText : Dialect → FieldPath → Template
  | postgres, f => .code "n.content" :: arrows "->>" f.keys
  | sqlite, f => contentCall "json_extract" (JsonPath.container f)

/-- The value of a field as JSON, to compare two fields with each other. -/
def extractJson : Dialect → FieldPath → Template
  | postgres, f => .code "n.content" :: arrows "->" f.keys
  | sqlite, f => extractText sqlite f

/-- A row source with the items that the wildcard of a field ranges over. -/
def each : Dialect → FieldPath → Template
  | postgres, f =>
    contentCall "jsonb_path_query" (JsonPath.ofField f) ++ [.code " AS w(value)"]
  | sqlite, f => contentCall "json_each" (JsonPath.container f)

/-- The current item of `each` as text. -/
def eachItem : Dialect → Template
  | postgres => [.code "w.value #>> ", .literal "\x7b\x7d"]
  | sqlite => [.code "value"]

/-- The condition that the content of the node has a field. -/
def presence : Dialect → FieldPath → Template
  | postgres, f =>
    if f.isPlain then contentCall "jsonb_exists" f.name
    else contentCall "jsonb_path_exists" (JsonPath.ofField f)
  | sqlite, f =>
    if f.isPlain then
      contentCall "json_type" (JsonPath.along [f.name]) ++ [.code " IS NOT NULL"]
    else if f.wildcard.isSome then
      .code "EXISTS (SELECT 1 FROM " :: each sqlite f ++ [.code ")"]
    else contentCall "json_type" (JsonPath.container f) ++ [.code " IS NOT NULL"]

/-- The word that negates an operator. -/
def negation (negated : Bool) : String := if negated then "NOT " else ""

/-- A pattern match. -/
def like (d : Dialect) (expr : Template) (negated caseless : Bool) (pattern : Template) :
    Template :=
  match d, caseless with
  | _, false => expr ++ .code (" " ++ negation negated ++ "LIKE ") :: pattern
  | postgres, true => expr ++ .code (" " ++ negation negated ++ "ILIKE ") :: pattern
  | sqlite, true =>
    expr ++ .code (" " ++ negation negated ++ "LIKE ") :: pattern ++ [.code " COLLATE NOCASE"]

/-- A match of a regular expression. -/
def regex (d : Dialect) (expr : Template) (negated caseless : Bool) (pattern : Template) :
    Template :=
  match d with
  | postgres => expr ++ .code (" " ++ (Operator.regex negated caseless).symbol ++ " ") :: pattern
  | sqlite =>
    let found :=
      if caseless then .code "regexp_i(" :: expr ++ .code ", " :: pattern ++ [.code ")"]
      else expr ++ .code " REGEXP " :: pattern
    if negated then .code "NOT (" :: found ++ [.code ")"] else found

end Dialect
end ContentFilter
