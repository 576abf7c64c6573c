/-!
# Decimals

A decimal is an integer mantissa divided by a power of ten.  It is written without an exponent,
and its scale is the number of digits behind the point, trailing zeros included.  Mantissas have
at most 96 bits and scales are at most 28; a text that needs more is not read.

The tool takes its decimals from a package.  These bounds, and which texts are read, follow the
known behaviour of the package and not its code.
-/

namespace ContentFilter

/-- A number `mantissa / 10 ^ scale`. -/
structure Decimal where
  mantissa : Int
  scale : Nat
deriving DecidableEq, Repr

namespace Decimal

/-- A power of ten. -/
def tenTo (k : Nat) : Nat := Nat.pow 10 k

/-- Mantissas have at most 96 bits. -/
def mantissaBound : Nat := Nat.pow 2 96

/-- The number that some digits write. -/
def natOfDigits (cs : List Char) : Nat :=
  cs.foldl (fun n c => 10 * n + (c.toNat - '0'.toNat)) 0

/-- The digits of a number. -/
def digitsOf (n : Nat) : List Char := Nat.toDigits 10 n

/-- The digits before and behind the point of an unsigned text, if it is digits with an optional
point between them. -/
def splitPoint? (cs : List Char) : Option (List Char × List Char) :=
  let whole := cs.takeWhile Char.isDigit
  match cs.dropWhile Char.isDigit with
  | [] => if whole.isEmpty then none else some (whole, [])
  | c :: fraction =>
    if c = '.' && !whole.isEmpty && !fraction.isEmpty && fraction.all Char.isDigit then
      some (whole, fraction)
    else none

/-- The decimal that a text writes exactly, if it is in range. -/
def ofText? (text : String) : Option Decimal :=
  let (negative, cs) :=
    match text.toList with
    | '-' :: r => (true, r)
    | cs => (false, cs)
  match splitPoint? cs with
  | none => none
  | some (whole, fraction) =>
    let n := natOfDigits (whole ++ fraction)
    if fraction.length ≤ 28 ∧ n < mantissaBound then
      some ⟨if negative then -n else n, fraction.length⟩
    else none

/-- The text of a decimal: at least one digit before the point, and as many behind it as the
scale says. -/
def text (d : Decimal) : String :=
  let digits := digitsOf d.mantissa.natAbs
  let padded := List.replicate (d.scale + 1 - digits.length) '0' ++ digits
  let whole := padded.take (padded.length - d.scale)
  let fraction := padded.drop (padded.length - d.scale)
  let sign := if d.mantissa < 0 then ['-'] else []
  String.ofList (sign ++ whole ++ if d.scale = 0 then [] else '.' :: fraction)

end Decimal
end ContentFilter
