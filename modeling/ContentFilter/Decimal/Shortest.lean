import ContentFilter.Decimal.Binary64
/-!
# Shortest decimal digits

The fewest decimal digits that identify a binary floating point number: the decimal with the
fewest significant digits among those that round to the number, and of two such the one nearer
to it.  Two such may be equally near, as 1.2 and 1.3 would be to 1.25; then a rule for ties
decides.  On the grid of the decimals with a given number of digits it suffices to look at the two
neighbours of the number.

Libraries write floating point numbers so, and the tool uses two of them.  Their rules for ties,
which differ, follow their known behaviour and not their code.
-/

namespace ContentFilter

/-- The decimal number `digits * 10 ^ exponent`. -/
structure Scientific where
  digits : Nat
  exponent : Int
deriving DecidableEq, Repr

namespace Scientific

/-- The number as a fraction. -/
def ratio (s : Scientific) : Nat × Nat :=
  if 0 ≤ s.exponent then (s.digits * Decimal.tenTo s.exponent.toNat, 1)
  else (s.digits, Decimal.tenTo (-s.exponent).toNat)

/-- Whether the number is the magnitude of a decimal. -/
def equals (s : Scientific) (d : Decimal) : Bool :=
  s.ratio.1 * Decimal.tenTo d.scale = d.mantissa.natAbs * s.ratio.2

end Scientific

/-- Which one of two equally near neighbours on a grid is chosen. -/
inductive Tie where
  /-- The one whose last digit is even. -/
  | even
  /-- The greater one. -/
  | up
deriving DecidableEq, Repr

/-- Whether a tie goes to the lower neighbour, given that neighbour's digits. -/
def Tie.takesBelow : Tie → Nat → Bool
  | even, digits => digits % 2 = 0
  | up, _ => false

namespace Binary64

/-- The number of decimal digits before the point; for a number below one, the negated number of
zeros behind the point before the first other digit. -/
def decimalPoint (num den : Nat) : Int :=
  if den ≤ num then (Decimal.digitsOf (num / den)).length
  else 1 - ((Decimal.digitsOf ((den - 1) / num)).length : Int)

/-- Whether a decimal number rounds to the given one. -/
def readsBack (x : Binary64) (s : Scientific) : Bool :=
  nearest s.ratio.1 s.ratio.2 = x

/-- The nearer one of the two neighbours of a number on the grid of multiples of a power of ten,
among those that round to the number. -/
def neighbour? (tie : Tie) (x : Binary64) (exponent : Int) : Option Scientific :=
  let (num, den) := x.ratio
  let (n, d) :=
    if 0 ≤ exponent then (num, den * Decimal.tenTo exponent.toNat)
    else (num * Decimal.tenTo (-exponent).toNat, den)
  let below : Scientific := ⟨n / d, exponent⟩
  let above : Scientific := ⟨n / d + 1, exponent⟩
  match x.readsBack below, x.readsBack above with
  | true, true =>
    let r := 2 * (n % d)
    if r < d ∨ (r = d ∧ tie.takesBelow (n / d)) then some below else some above
  | true, false => some below
  | false, true => some above
  | false, false => none

/-- The shortest decimal number that rounds to a number; seventeen digits always suffice. -/
def shortest (tie : Tie) (x : Binary64) : Scientific :=
  if x.mantissa = 0 then ⟨0, 0⟩
  else
    let (num, den) := x.ratio
    let point := decimalPoint num den
    match (List.range 17).findSome? fun n : Nat => x.neighbour? tie (point - (n + 1 : Nat)) with
    | some s => if s.digits % 10 = 0 then ⟨s.digits / 10, s.exponent + 1⟩ else s
    | none => ⟨num, 0⟩

end Binary64
end ContentFilter
