/-!
# Scalars

The values that are bound to placeholders and that lists hold.  A number is kept as the text it
is written with, so that no digit is lost.
-/

namespace ContentFilter

/-- A scalar value. -/
inductive Scalar where
  | boolean (value : Bool)
  /-- A number, as it is written. -/
  | number (text : String)
  | string (text : String)
deriving DecidableEq, Repr

namespace Scalar

/-- The text of a boolean. -/
def ofBool (b : Bool) : String := if b then "true" else "false"

/-- The text of a string value. -/
def string? : Scalar → Option String
  | string s => some s
  | _ => none

/-- Whether the value is a number without a fraction. -/
def isInteger : Scalar → Bool
  | number n => !n.toList.contains '.'
  | _ => false

/-- The value for a reader: strings stand in single quotes, with nothing escaped. -/
def display : Scalar → String
  | boolean b => ofBool b
  | number n => n
  | string s => "'" ++ s ++ "'"

end Scalar
end ContentFilter
