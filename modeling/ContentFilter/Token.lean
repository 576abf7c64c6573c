import ContentFilter.Operator
/-!
# Tokens

A filter is read as a sequence of tokens.  A token has a kind, a span in the source, counted in
characters, and a lexeme: the text it stands for, which for a string is its content without the
delimiters.  The kind places a token in one of seven groups, and the shape of a filter depends
on the groups alone.  A list is a single token; its elements are tokens themselves.
-/

namespace ContentFilter

/-- The part a token plays in the shape of a filter. -/
inductive Group where
  | leftParen
  | rightParen
  | leftBracket
  | rightBracket
  /-- What can stand on either side of an operator. -/
  | operand
  /-- The operators of a condition. -/
  | operator
  /-- The connectives between conditions. -/
  | connective
deriving DecidableEq, Repr

/-- What a token is. -/
inductive Kind where
  /-- An operator of a condition. -/
  | operator (operator : Operator)
  /-- The connective `&`. -/
  | and
  /-- The connective `|`. -/
  | or
  | leftParen
  | rightParen
  | leftBracket
  | rightBracket
  /-- A string between double quotes, single quotes or slashes. -/
  | string
  /-- An integer or a decimal fraction, perhaps negative. -/
  | number
  /-- One of the words `true` and `false`. -/
  | boolean
  /-- The word `null`. -/
  | null
  /-- A name of a content field, perhaps with segments and a wildcard. -/
  | field
  /-- A name that stands for an SQL column. -/
  | builtin
  /-- The path of the node, perhaps with a locale. -/
  | path
  /-- The name of the full text index. -/
  | fulltext
  /-- The word `now`. -/
  | keyword
  /-- A bracketed list of scalar values. -/
  | list
deriving DecidableEq, Repr

namespace Kind

/-- The group of a kind. -/
def group : Kind → Group
  | operator _ => .operator
  | and | or => .connective
  | leftParen => .leftParen
  | rightParen => .rightParen
  | leftBracket => .leftBracket
  | rightBracket => .rightBracket
  | string | number | boolean | null | field | builtin | path | fulltext | keyword | list =>
    .operand

/-- Strings, numbers and booleans, the values a list may hold. -/
def isScalar : Kind → Bool
  | string | number | boolean => true
  | _ => false

/-- The operator a token of this kind is, if it is one. -/
def operator? : Kind → Option Operator
  | operator o => some o
  | _ => none

/-- How a kind is called in messages: operators and delimiters by their spelling, all others by
a word. -/
def symbol : Kind → String
  | operator o => o.symbol
  | and => "&"
  | or => "|"
  | leftParen => "("
  | rightParen => ")"
  | leftBracket => "["
  | rightBracket => "]"
  | string => "string"
  | number => "number"
  | boolean => "boolean"
  | null => "null"
  | field => "field"
  | builtin => "builtin"
  | path => "path"
  | fulltext => "fulltext"
  | keyword => "keyword"
  | list => "list"

/-- The kind with the sides of its operator exchanged. -/
def swapped : Kind → Kind
  | operator o => operator o.swapped
  | k => k

end Kind

/-- A stretch of the source, counted in characters. -/
structure Span where
  /-- The number of characters before the stretch. -/
  start : Nat
  /-- The number of characters in it. -/
  len : Nat
deriving DecidableEq, Repr

/-- The number of characters up to the end of a stretch. -/
def Span.stop (s : Span) : Nat := s.start + s.len

/-- The stretch from the start of one stretch to the end of another. -/
def Span.upTo (s t : Span) : Span := ⟨s.start, t.stop - s.start⟩

/-- A token of a filter. -/
structure Token where
  /-- What the token is. -/
  kind : Kind
  /-- The part it plays in the shape of the filter. -/
  group : Group
  /-- Where it stands in the source. -/
  span : Span
  /-- The text it stands for. -/
  lexeme : String
  /-- The elements of a list; other tokens have none. -/
  items : List Token
deriving Repr

namespace Token

/-- A token in the group of its kind, without elements. -/
def plain (kind : Kind) (span : Span) (lexeme : String) : Token :=
  ⟨kind, kind.group, span, lexeme, []⟩

instance : Inhabited Token := ⟨plain .null ⟨0, 4⟩ "null"⟩

/-- A list with its elements. -/
def ofItems (span : Span) (lexeme : String) (items : List Token) : Token :=
  ⟨.list, Kind.list.group, span, lexeme, items⟩

end Token
end ContentFilter
