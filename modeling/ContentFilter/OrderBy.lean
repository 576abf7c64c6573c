import ContentFilter.Dialect
import ContentFilter.Token.Scan
/-!
# Order-by statements

An order-by statement is a sequence of segments with commas between them.  A segment is a name,
perhaps followed by blanks and a direction, with blanks around it.  Case does not matter in the
direction nor for the letters of the name, and case is taken in the sense of simple case folding,
under which two letters outside ASCII are the same as ASCII ones: the long s and the kelvin sign.

A name is what a filter would read as a single builtin or as a single field without a wildcard,
and it is ordered by the same expression that a filter compares.
-/

namespace ContentFilter
namespace OrderBy

open Text

/-- The simple case folding of the characters that have an ASCII letter as their folding, and of
ASCII; other characters are left as they are. -/
def foldCase (c : Char) : Char :=
  if c.toNat = 0x17F then 's'
  else if c.toNat = 0x212A then 'k'
  else c.toLower

/-- The letters a name begins with, up to case. -/
def isNameStart (c : Char) : Bool := (foldCase c).isLower

/-- The characters a name goes on with, up to case. -/
def isNamePart (c : Char) : Bool :=
  isNameStart c || c.isDigit || c = '_' || c = '.' || c = '-'

/-- Whether a word is a direction, up to case. -/
def isDirection (word : List Char) : Bool :=
  let folded := word.map foldCase
  folded = "asc".toList || folded = "desc".toList

/-- A segment of an order-by statement. -/
structure Segment where
  /-- The name to order by. -/
  name : List Char
  /-- The direction as it is written, if there is one. -/
  direction : Option (List Char)
deriving DecidableEq, Repr

namespace Segment

/-- The segment that a text writes, if it writes one. -/
def read? (cs : List Char) : Option Segment :=
  let cs := cs.dropWhile isBlank
  if cs.head?.any isNameStart then
    let name := cs.takeWhile isNamePart
    let behind := (cs.dropWhile isNamePart).dropWhile isBlank
    let word := behind.takeWhile (!isBlank ·)
    if behind.isEmpty then some ⟨name, none⟩
    else if isDirection word && (behind.dropWhile (!isBlank ·)).all isBlank then
      some ⟨name, some word⟩
    else none
  else none

/-- Whether the order is descending: the direction is `desc` in ASCII letters of any case. -/
def isDescending (s : Segment) : Bool :=
  s.direction.any fun word => word.map Char.toLower = "desc".toList

end Segment

/-- The refusal of an order-by statement. -/
def refuse (cause : OrderCause) : ParseError := .unmarked (.order cause)

/-- The SQL expression that a name orders by. -/
def resolve (d : Dialect) (b : Builtins) (name : List Char) : Except ParseError String :=
  let refused := Except.error (refuse (.invalidName (String.ofList name)))
  match Token.ofSource b (String.ofList name) with
  | .ok [t] =>
    match t.kind with
    | .builtin =>
      match b.column? t.lexeme with
      | some column => .ok column
      | none => refused
    | .field =>
      match FieldPath.ofText? t.lexeme with
      | some f => if f.wildcard.isNone then .ok (d.extractText f).text else refused
      | none => refused
    | _ => refused
  | _ => refused

/-- The SQL of one segment, given as text. -/
def clause (d : Dialect) (b : Builtins) (cs : List Char) : Except ParseError String :=
  match Segment.read? cs with
  | none => .error (refuse (.invalidSegment (String.ofList (trim cs))))
  | some s => do
    let expr ← resolve d b s.name
    return expr ++ (if s.isDescending then " DESC" else " ASC")

/-- The SQL of an order-by statement: its clauses on lines of their own. -/
def compile (d : Dialect) (b : Builtins) (statement : String) : Except ParseError String :=
  if (trim statement.toList).isEmpty then .error (refuse .emptyStatement)
  else do
    let clauses ← (splitOn ',' statement.toList).mapM (clause d b)
    return ",\n".intercalate clauses

end OrderBy
end ContentFilter
