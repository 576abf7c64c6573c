import ContentFilter.Sql.Sink
/-!
# SQL templates

SQL is composed of three kinds of pieces: code, literals in single quotes, and holes for values
that are to be bound.  A template is a sequence of pieces.  It has no placeholders yet; these are
chosen when the template is filled from a sink, hole after hole in the order of the text
(`Template.fill`).  So a template can be composed without regard to what was bound before, and
filling a sequence of templates joined is filling one after the other (`Template.fill_append`).
-/

namespace ContentFilter

/-- A piece of SQL. -/
inductive Piece where
  /-- SQL as it is written, outside of literals. -/
  | code (text : String)
  /-- A literal in single quotes, given by its content. -/
  | literal (content : String)
  /-- A hole for a value. -/
  | hole (value : Scalar)
deriving DecidableEq, Repr

/-- A sequence of pieces of SQL. -/
abbrev Template := List Piece

namespace Sql

/-- The characters that stand for one character of a literal: a quote is doubled. -/
def escape (c : Char) : List Char := if c = '\'' then ['\'', '\''] else [c]

/-- A text as an SQL literal in single quotes. -/
def quote (s : String) : String :=
  String.ofList ('\'' :: s.toList.flatMap escape ++ ['\''])

end Sql

namespace Template

/-- The values that the holes of a template wait for, in the order of the text. -/
def values : Template → List Scalar
  | [] => []
  | .hole v :: r => v :: values r
  | _ :: r => values r

/-- Fill the holes of a template with placeholders from a sink, from left to right. -/
def fill : Template → Sink → String × Sink
  | [], s => ("", s)
  | .code t :: r, s => let (text, s) := fill r s; (t ++ text, s)
  | .literal c :: r, s => let (text, s) := fill r s; (Sql.quote c ++ text, s)
  | .hole v :: r, s =>
    let (placeholder, s) := s.add v
    let (text, s) := fill r s
    (placeholder ++ text, s)

/-- The SQL of a template, with a question mark for each hole. -/
def text : Template → String
  | [] => ""
  | .code t :: r => t ++ text r
  | .literal c :: r => Sql.quote c ++ text r
  | .hole _ :: r => "?" ++ text r

/-- Join templates with the same code between any two. -/
def join (separator : String) : List Template → Template
  | [] => []
  | [t] => t
  | t :: u :: r => t ++ .code separator :: join separator (u :: r)

/-- Joined templates are filled one after the other. -/
theorem fill_append (t u : Template) (s : Sink) :
    fill (t ++ u) s = ((fill t s).1 ++ (fill u (fill t s).2).1, (fill u (fill t s).2).2) := by
  induction t generalizing s with
  | nil => simp [fill]
  | cons p r ih =>
    cases p <;> simp [fill, ih, String.append_assoc]

end Template
end ContentFilter
