import ContentFilter.Json
/-!
# Reading JSON

A text is cut into symbols: the six punctuation marks, and the atoms, which are strings, numbers
and the three words.  The symbols are then read as one value, to a limited depth of nesting.
Reading is strict: nothing but the four blanks of JSON may stand between symbols, a number has no
superfluous zero in front, and a string holds neither raw control characters nor half a surrogate
pair.

The tool leaves this to a package.  Which texts are read, and as what, follows the known behaviour
of the package and not its code; what it says of a text that it refuses is left open
(`CommandError.message`).
-/

namespace ContentFilter
namespace Json

/-! ## Strings -/

/-- The value of a hexadecimal digit. -/
def hexValue? (c : Char) : Option Nat :=
  if c.isDigit then some (c.toNat - 48)
  else if 'a'.toNat ≤ c.toNat ∧ c.toNat ≤ 'f'.toNat then some (c.toNat - 87)
  else if 'A'.toNat ≤ c.toNat ∧ c.toNat ≤ 'F'.toNat then some (c.toNat - 55)
  else none

/-- The number that four hexadecimal digits write. -/
def hex4? (a b c d : Char) : Option Nat := do
  let a ← hexValue? a
  let b ← hexValue? b
  let c ← hexValue? c
  let d ← hexValue? d
  return 4096 * a + 256 * b + 16 * c + d

/-- The character that a letter stands for behind a backslash. -/
def unescape? (c : Char) : Option Char :=
  if c = '"' ∨ c = '\\' ∨ c = '/' then some c
  else if c = 'b' then some (Char.ofNat 8)
  else if c = 'f' then some (Char.ofNat 12)
  else if c = 'n' then some '\n'
  else if c = 'r' then some '\r'
  else if c = 't' then some '\t'
  else none

/-- The first half of a surrogate pair. -/
def isHighSurrogate (n : Nat) : Bool := 0xD800 ≤ n && n < 0xDC00

/-- The second half of a surrogate pair. -/
def isLowSurrogate (n : Nat) : Bool := 0xDC00 ≤ n && n < 0xE000

/-- The content of a string from behind its opening quote, and what follows the closing one. -/
def stringBody : List Char → Option (List Char × List Char)
  | [] => none
  | '"' :: r => some ([], r)
  | '\\' :: 'u' :: a :: b :: c :: d :: '\\' :: 'u' :: e :: f :: g :: h :: r => do
    let n ← hex4? a b c d
    if isHighSurrogate n then
      let m ← hex4? e f g h
      if isLowSurrogate m then
        let (s, r) ← stringBody r
        return (Char.ofNat (0x10000 + 1024 * (n - 0xD800) + (m - 0xDC00)) :: s, r)
      else none
    else if isLowSurrogate n then none
    else
      let (s, r) ← stringBody ('\\' :: 'u' :: e :: f :: g :: h :: r)
      return (Char.ofNat n :: s, r)
  | '\\' :: 'u' :: a :: b :: c :: d :: r => do
    let n ← hex4? a b c d
    if isHighSurrogate n || isLowSurrogate n then none
    else
      let (s, r) ← stringBody r
      return (Char.ofNat n :: s, r)
  | '\\' :: c :: r => do
    let c ← unescape? c
    let (s, r) ← stringBody r
    return (c :: s, r)
  | c :: r =>
    if c.toNat < 32 ∨ c = '\\' then none
    else do
      let (s, r) ← stringBody r
      return (c :: s, r)

/-! ## Numbers -/

/-- The largest significand that is kept exactly. -/
def maxSignificand : Nat := 18446744073709551615

/-- Append digits to a significand as long as it stays in range; also how many of them fit. -/
def absorb (significand : Nat) : List Char → Nat × Nat
  | [] => (significand, 0)
  | c :: r =>
    let next := 10 * significand + (c.toNat - 48)
    if next ≤ maxSignificand then
      let (s, n) := absorb next r
      (s, n + 1)
    else (significand, 0)

/-- A significand times a power of ten, in steps that round: the power is a rounded number
itself, and smaller powers than the least one of the table are divided off piece by piece.  A
result that is too large is none. -/
def scaleTen (x : Binary64) (exponent : Int) : Option Binary64 :=
  if exponent.natAbs ≤ 308 then
    let power := Binary64.ofNat (Decimal.tenTo exponent.natAbs)
    if 0 ≤ exponent then
      let y := x.mul power
      if y.overflows then none else some y
    else some (x.div power)
  else if x.mantissa = 0 then some x
  else if 0 ≤ exponent then none
  else scaleTen (x.div (.ofNat (Decimal.tenTo 308))) (exponent + 308)
termination_by exponent.natAbs
decreasing_by omega

/-- The digits behind a point, if there is a point; at least one must follow it. -/
def fractionPart : List Char → Option (Option (List Char) × List Char)
  | '.' :: r =>
    let digits := r.takeWhile Char.isDigit
    if digits.isEmpty then none else some (some digits, r.dropWhile Char.isDigit)
  | r => some (none, r)

/-- The exponent behind an `e`, if there is one. -/
def exponentPart : List Char → Option (Option Int × List Char)
  | c :: r =>
    if c = 'e' ∨ c = 'E' then
      let (negative, r) :=
        match r with
        | '+' :: r => (false, r)
        | '-' :: r => (true, r)
        | r => (false, r)
      let digits := r.takeWhile Char.isDigit
      let n : Int := Decimal.natOfDigits digits
      if digits.isEmpty then none
      else some (some (if negative then -n else n), r.dropWhile Char.isDigit)
    else some (none, c :: r)
  | [] => some (none, [])

/-- The value of a number given by its parts.  Without a fraction and an exponent it is an
integer if it fits in 64 bits, signed or unsigned, and is not a negative zero. -/
def numberOfParts (negative : Bool) (whole : List Char) (fraction : Option (List Char))
    (exponent : Option Int) : Option Json :=
  let n := Decimal.natOfDigits whole
  if fraction.isNone ∧ exponent.isNone ∧
      (if negative then 0 < n ∧ n ≤ 9223372036854775808 else n ≤ maxSignificand) then
    some (integer (if negative then -n else n))
  else
    let (s, fits) := absorb 0 whole
    let (s, places) := absorb s (fraction.getD [])
    let e : Int := ((whole.length - fits : Nat) : Int) - places + exponent.getD 0
    (scaleTen (.ofNat s) e).map (float negative)

/-- The number at the head of a text, and what follows it. -/
def number? (cs : List Char) : Option (Json × List Char) := do
  let (negative, cs) :=
    match cs with
    | '-' :: r => (true, r)
    | cs => (false, cs)
  let whole := cs.takeWhile Char.isDigit
  if whole.isEmpty ∨ (whole.head? = some '0' ∧ 1 < whole.length) then none
  else
    let (fraction, r) ← fractionPart (cs.dropWhile Char.isDigit)
    let (exponent, r) ← exponentPart r
    let v ← numberOfParts negative whole fraction exponent
    return (v, r)

/-! ## Symbols -/

/-- A symbol of a JSON text. -/
inductive Symbol where
  /-- A punctuation mark. -/
  | mark (c : Char)
  /-- A string, a number or a word. -/
  | atom (value : Json)

/-- The blanks of JSON. -/
def isBlank (c : Char) : Bool := c = ' ' || c = '\n' || c = '\r' || c = '\t'

/-- The punctuation marks: braces, brackets, comma and colon. -/
def isMark (c : Char) : Bool :=
  c = '\x7b' || c = '\x7d' || c = '[' || c = ']' || c = ',' || c = ':'

/-- The atom at the head of a text that begins with the given character, and what follows it. -/
def atom? (c : Char) (r : List Char) : Option (Json × List Char) :=
  if c = '"' then (stringBody r).map fun p => (string (String.ofList p.1), p.2)
  else if "true".toList.isPrefixOf (c :: r) then some (bool true, r.drop 3)
  else if "false".toList.isPrefixOf (c :: r) then some (bool false, r.drop 4)
  else if "null".toList.isPrefixOf (c :: r) then some (null, r.drop 3)
  else number? (c :: r)

/-- The symbols of a text, if it is made of symbols.  Every symbol takes up a character, so a
bound as large as the text does not limit their number. -/
def symbols? : Nat → List Char → Option (List Symbol)
  | _, [] => some []
  | 0, _ :: _ => none
  | bound + 1, c :: r =>
    if isBlank c then symbols? bound r
    else if isMark c then (symbols? bound r).map (.mark c :: ·)
    else do
      let (v, r) ← atom? c r
      let rest ← symbols? bound r
      return .atom v :: rest

/-! ## Values -/

/-- A sequence of items with commas between them, up to a closing mark.  Every item takes up a
symbol, so a bound as large as the rest does not limit their number. -/
def sequence? {α : Type} (item : List Symbol → Option (α × List Symbol)) (close : Char) :
    Nat → List Symbol → Option (List α × List Symbol)
  | 0, _ => none
  | bound + 1, ts => do
    let (v, r) ← item ts
    match r with
    | .mark c :: r =>
      if c = ',' then
        let (vs, r) ← sequence? item close bound r
        return (v :: vs, r)
      else if c = close then return ([v], r)
      else none
    | _ => none

/-- A member of an object: a key, a colon, and a value. -/
def member? (value : List Symbol → Option (Json × List Symbol)) :
    List Symbol → Option ((String × Json) × List Symbol)
  | .atom (.string k) :: .mark ':' :: r => do
    let (v, r) ← value r
    return ((k, v), r)
  | _ => none

/-- The value at the head of some symbols, with arrays and objects nested up to a given
depth. -/
def value? : Nat → List Symbol → Option (Json × List Symbol)
  | _, .atom v :: r => some (v, r)
  | depth + 1, .mark '[' :: r =>
    match r with
    | .mark ']' :: r => some (array [], r)
    | r => (sequence? (value? depth) ']' r.length r).map fun p => (array p.1, p.2)
  | depth + 1, .mark '\x7b' :: r =>
    match r with
    | .mark '\x7d' :: r => some (object [], r)
    | r =>
      (sequence? (member? (value? depth)) '\x7d' r.length r).map fun p =>
        (ofMembers p.1, p.2)
  | _, _ => none

/-- The depth to which arrays and objects may be nested. -/
def maxDepth : Nat := 127

/-- The value that a text writes, if it writes exactly one. -/
def read? (text : String) : Option Json := do
  let ts ← symbols? text.length text.toList
  match value? maxDepth ts with
  | some (v, []) => return v
  | _ => none

end Json
end ContentFilter
