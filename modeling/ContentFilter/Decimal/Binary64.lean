import ContentFilter.Decimal
/-!
# Binary floating point numbers

The non-negative numbers of the binary64 format, as an integer of at most 53 bits times a power
of two.  Every operation is the exact one followed by rounding to the nearest number of the
format, with ties to the even mantissa, and is computed with integers.  The exponent is bounded
below, so that small numbers lose precision and finally vanish; it is not bounded above, and a
number that is too large for the format says so (`Binary64.overflows`).

How a decimal becomes such a number is up to the package with the decimals: the steps, and where
they round, follow its known behaviour and not its code.
-/

namespace ContentFilter

/-- The number `mantissa * 2 ^ exponent`. -/
structure Binary64 where
  mantissa : Nat
  exponent : Int
deriving DecidableEq, Repr

namespace Binary64

/-- A power of two. -/
def twoTo (k : Nat) : Nat := Nat.pow 2 k

/-- The least exponent of the format. -/
def minExponent : Int := -1074

/-- Whether the number is beyond the largest one of the format. -/
def overflows (x : Binary64) : Bool := 971 < x.exponent

/-- Zero. -/
def zero : Binary64 := ⟨0, minExponent⟩

/-- A number as a fraction. -/
def ratio (x : Binary64) : Nat × Nat :=
  if 0 ≤ x.exponent then (x.mantissa * twoTo x.exponent.toNat, 1)
  else (x.mantissa, twoTo (-x.exponent).toNat)

/-- The fraction `num / den` divided by a power of two, as a fraction. -/
def scaled (num den : Nat) (e : Int) : Nat × Nat :=
  if 0 ≤ e then (num, den * twoTo e.toNat) else (num * twoTo (-e).toNat, den)

/-- The integer nearest to a fraction, the even one of two. -/
def roundEven (num den : Nat) : Nat :=
  let q := num / den
  let r := num % den
  if den < 2 * r ∨ (den = 2 * r ∧ q % 2 = 1) then q + 1 else q

/-- The integer nearest to a fraction, the larger one of two. -/
def roundUp (num den : Nat) : Nat := (2 * num + den) / (2 * den)

/-- The exponent for which the fraction has 53 bits before the binary point, or the least one. -/
def exponentFor (num den : Nat) : Int :=
  let e : Int := (num.log2 : Int) - (den.log2 : Int) - 52
  let s := scaled num den e
  max minExponent (if s.1 / s.2 < twoTo 52 then e - 1 else e)

/-- The number nearest to the fraction `num / den`. -/
def nearest (num den : Nat) : Binary64 :=
  if num = 0 then zero
  else
    let e := exponentFor num den
    let s := scaled num den e
    let m := roundEven s.1 s.2
    if m = twoTo 53 then ⟨twoTo 52, e + 1⟩ else ⟨m, e⟩

/-- The number nearest to an integer. -/
def ofNat (n : Nat) : Binary64 := nearest n 1

/-- The rounded sum. -/
def add (x y : Binary64) : Binary64 :=
  let (a, b) := x.ratio
  let (c, d) := y.ratio
  nearest (a * d + c * b) (b * d)

/-- The rounded product. -/
def mul (x y : Binary64) : Binary64 :=
  let (a, b) := x.ratio
  let (c, d) := y.ratio
  nearest (a * c) (b * d)

/-- The rounded quotient. -/
def div (x y : Binary64) : Binary64 :=
  let (a, b) := x.ratio
  let (c, d) := y.ratio
  nearest (a * d) (b * c)

/-- The nearest integer, the larger one of two. -/
def round (x : Binary64) : Binary64 :=
  let (a, b) := x.ratio
  nearest (roundUp a b) 1

end Binary64

/-- A decimal without its sign as a binary floating point number.  The whole part and the
fraction are rounded apart and added, and the sum is rounded once more to the scale of the
decimal; this does not always give the nearest number. -/
def Decimal.toBinary64 (d : Decimal) : Binary64 :=
  let power := tenTo d.scale
  let whole := Binary64.ofNat (d.mantissa.natAbs / power)
  let fraction := (Binary64.ofNat (d.mantissa.natAbs % power)).div (.ofNat power)
  if fraction.mantissa = 0 then whole
  else (((whole.add fraction).mul (.ofNat power)).round).div (.ofNat power)

end ContentFilter
