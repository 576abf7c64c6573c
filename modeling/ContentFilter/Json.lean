import ContentFilter.Decimal.Shortest
import ContentFilter.Table
/-!
# JSON values

JSON values and their texts.  The members of an object are kept in the order of their keys, and a
key that is repeated keeps its last value.  A value is written without any spaces, or over
several lines with two spaces for each level.

The tool leaves JSON to a package, which is not modelled from its code: the order of the members,
the layouts and the texts of numbers are those that the package is known to write.
-/

namespace ContentFilter

/-- A JSON value. -/
inductive Json where
  | null
  | bool (value : Bool)
  | integer (value : Int)
  /-- A floating point number, given by its sign and its magnitude. -/
  | float (negative : Bool) (magnitude : Binary64)
  | string (text : String)
  | array (elements : List Json)
  /-- An object, with its members in the order of their keys. -/
  | object (members : List (String × Json))

namespace Json

/-- The object with the given members; a repeated key keeps its last value. -/
def ofMembers (members : List (String × Json)) : Json := object (Table.ofList members).toList

/-! ## Texts of numbers and strings -/

/-- The text of a decimal number: with a point and at least one digit on either side of it if the
leading digit stands at most five places behind the point and at most sixteen places before it,
and with a signed exponent otherwise. -/
def scientificText (s : Scientific) : List Char :=
  let digits := Decimal.digitsOf s.digits
  let count : Int := digits.length
  let leading := s.exponent + count - 1
  if s.digits = 0 then "0.0".toList
  else if -5 ≤ leading ∧ leading < 16 then
    if 0 ≤ s.exponent then digits ++ List.replicate s.exponent.toNat '0' ++ ".0".toList
    else if 0 ≤ leading then
      digits.take (leading + 1).toNat ++ '.' :: digits.drop (leading + 1).toNat
    else "0.".toList ++ List.replicate (-leading - 1).toNat '0' ++ digits
  else
    let mantissa :=
      match digits with
      | [] => []
      | [d] => [d]
      | d :: r => d :: '.' :: r
    let sign := if leading < 0 then '-' else '+'
    mantissa ++ 'e' :: sign :: Decimal.digitsOf leading.natAbs

/-- The text of a floating point number: its shortest decimal, with an even last digit where two
are equally near. -/
def floatText (negative : Bool) (x : Binary64) : List Char :=
  (if negative then ['-'] else []) ++ scientificText (x.shortest .even)

/-- The text of an integer. -/
def integerText (i : Int) : List Char :=
  (if i < 0 then ['-'] else []) ++ Decimal.digitsOf i.natAbs

/-- A hexadecimal digit in lower case. -/
def hexDigit (n : Nat) : Char := Nat.digitChar n

/-- The characters that stand for one character of a string: quote, backslash and control
characters are escaped. -/
def escape (c : Char) : List Char :=
  if c = '"' then ['\\', '"']
  else if c = '\\' then ['\\', '\\']
  else if c = '\n' then ['\\', 'n']
  else if c = '\r' then ['\\', 'r']
  else if c = '\t' then ['\\', 't']
  else if c.toNat = 8 then ['\\', 'b']
  else if c.toNat = 12 then ['\\', 'f']
  else if c.toNat < 32 then
    ['\\', 'u', '0', '0', hexDigit (c.toNat / 16), hexDigit (c.toNat % 16)]
  else [c]

/-- The text of a string. -/
def stringText (s : String) : List Char := '"' :: s.toList.flatMap escape ++ ['"']

/-! ## Texts of values -/

/-- How the parts of arrays and objects are set off from each other. -/
structure Layout where
  /-- What stands before a part at a given depth. -/
  newline : Nat → List Char
  /-- What stands behind the colon of a member. -/
  space : List Char

/-- Everything on one line without spaces. -/
def Layout.compact : Layout := ⟨fun _ => [], []⟩

/-- Every part on a line of its own, with two spaces for each level. -/
def Layout.pretty : Layout := ⟨fun depth => '\n' :: List.replicate (2 * depth) ' ', [' ']⟩

mutual

/-- The text of a value that stands at some depth. -/
def render (l : Layout) (depth : Nat) : Json → List Char
  | null => "null".toList
  | bool b => if b then "true".toList else "false".toList
  | integer i => integerText i
  | float n x => floatText n x
  | string s => stringText s
  | array [] => "[]".toList
  | array (v :: r) =>
    '[' :: l.newline (depth + 1) ++ render l (depth + 1) v ++ renderElements l (depth + 1) r ++
      l.newline depth ++ [']']
  | object [] => ['\x7b', '\x7d']
  | object ((k, v) :: r) =>
    '\x7b' :: l.newline (depth + 1) ++ stringText k ++ ':' :: l.space ++ render l (depth + 1) v ++
      renderMembers l (depth + 1) r ++ l.newline depth ++ ['\x7d']

/-- The texts of the further elements of an array. -/
def renderElements (l : Layout) (depth : Nat) : List Json → List Char
  | [] => []
  | v :: r => ',' :: l.newline depth ++ render l depth v ++ renderElements l depth r

/-- The texts of the further members of an object. -/
def renderMembers (l : Layout) (depth : Nat) : List (String × Json) → List Char
  | [] => []
  | (k, v) :: r =>
    ',' :: l.newline depth ++ stringText k ++ ':' :: l.space ++ render l depth v ++
      renderMembers l depth r

end

/-- The text of a value in a layout. -/
def text (l : Layout) (v : Json) : String := String.ofList (render l 0 v)

end Json
end ContentFilter
