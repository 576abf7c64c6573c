import ContentFilter.Options
import ContentFilter.Proofs.Decimal.Ties
/-!
# Numbers in JSON

A bound number becomes a JSON string with its text or a JSON number, and the text of the JSON number
should denote the very number that the filter has (`Scalar.json_number_exact_iff`).  An integer is a
JSON number if it fits in 64 bits, and then nothing is lost.  A number out of the range of decimals
is a string.

A fraction is a JSON number if it is the shortest decimal of a floating point number.  Which of two
equally near decimals is the shortest one is decided differently by the check and by the text of the
JSON number, so a fraction that is midway comes out as its even neighbour (`Json.Tied`); no other
one is changed.
-/

namespace ContentFilter

open Lexeme (Number)
open Decimal (InRange numberOf? written places natOfDigits)

namespace Json

/-- The value is a JSON number. -/
def IsNumber : Json → Prop
  | integer _ => True
  | float _ _ => True
  | _ => False

instance : DecidablePred IsNumber
  | integer _ => isTrue trivial
  | float _ _ => isTrue trivial
  | null => isFalse id
  | bool _ => isFalse id
  | string _ => isFalse id
  | array _ => isFalse id
  | object _ => isFalse id

/-- The value is the JSON number of a floating point number that is midway between the magnitude of
the given number and its even neighbour. -/
def Tied (v : Json) (q : ℚ) : Prop := ∃ negative x, v = float negative x ∧ x.Tied |q|

end Json

namespace Scalar

variable {n : String} {i : Int}

lemma fitsInt64_iff : fitsInt64 i = true ↔ (-2 ^ 63 : ℚ) ≤ i ∧ (i : ℚ) < 2 ^ 63 := by
  have hlow : (-2 ^ 63 : ℚ) ≤ i ↔ -9223372036854775808 ≤ i := by
    rw [show (-2 ^ 63 : ℚ) = ((-9223372036854775808 : ℤ) : ℚ) by norm_num, Int.cast_le]
  have hhigh : (i : ℚ) < 2 ^ 63 ↔ i ≤ 9223372036854775807 := by
    rw [show (2 ^ 63 : ℚ) = ((9223372036854775808 : ℤ) : ℚ) by norm_num, Int.cast_lt]
    omega
  rw [hlow, hhigh, fitsInt64, Bool.and_eq_true, decide_eq_true_eq, decide_eq_true_eq]

/-- An integer that is out of the range of decimals does not fit in 64 bits. -/
lemma fitsInt64_written_of_not_inRange {cs : List Char} (hpoint : '.' ∉ cs) (h : ¬InRange cs) :
    fitsInt64 (written cs).mantissa = false := by
  have hlarge : 2 ^ 96 ≤ natOfDigits (cs.filter Char.isDigit) := by
    by_contra hlt
    exact h ⟨by rw [Decimal.places_of_notMem hpoint]; exact Nat.zero_le _, Nat.lt_of_not_le hlt⟩
  rw [← Bool.not_eq_true, fitsInt64, Bool.and_eq_true, decide_eq_true_eq, decide_eq_true_eq]
  rintro ⟨hlow, hhigh⟩
  have habs := Decimal.natAbs_written cs
  omega

/-- A number is a JSON string, a JSON integer or a floating point number. -/
lemma json_number_cases (hn : Number n.toList) :
    (number n).json = .string n ∧
        ('.' ∉ n.toList → fitsInt64 (written n.toList).mantissa = false) ∨
      (number n).json = .integer (written n.toList).mantissa ∧ '.' ∉ n.toList ∧
        fitsInt64 (written n.toList).mantissa = true ∧ InRange n.toList ∨
      ∃ x : Binary64, (number n).json = .float ((written n.toList).mantissa < 0) x ∧
        '.' ∈ n.toList ∧ (x.shortest .up).equals (written n.toList) = true ∧ InRange n.toList := by
  have hread := Decimal.ofText?_of_number hn
  by_cases hrange : InRange n.toList
  · rw [if_pos hrange] at hread
    by_cases hpoint : '.' ∈ n.toList
    · have hkind : (number n).isInteger = false := by simp [isInteger, hpoint]
      by_cases hequal :
          ((written n.toList).toBinary64.shortest .up).equals (written n.toList) = true
      · refine .inr (.inr ⟨(written n.toList).toBinary64, ?_, hpoint, hequal, hrange⟩)
        simp [json, numberJson?, hread, hkind, hequal]
      · refine .inl ⟨?_, fun h => absurd hpoint h⟩
        simp [json, numberJson?, hread, hkind, hequal]
    · have hkind : (number n).isInteger = true := by simp [isInteger, hpoint]
      by_cases hfits : fitsInt64 (written n.toList).mantissa = true
      · refine .inr (.inl ⟨?_, hpoint, hfits, hrange⟩)
        simp [json, numberJson?, hread, hkind, hfits]
      · refine .inl ⟨?_, fun _ => by simpa using hfits⟩
        simp [json, numberJson?, hread, hkind, hfits]
  · rw [if_neg hrange] at hread
    refine .inl ⟨by simp [json, numberJson?, hread], fun hpoint => ?_⟩
    exact fitsInt64_written_of_not_inRange hpoint hrange

/-- The text of the floating point number that a fraction becomes denotes the fraction, unless the
floating point number is midway. -/
lemma numberOf?_text_float_iff {d : Decimal} {x : Binary64} (h : (x.shortest .up).equals d = true)
    (l : Json.Layout) :
    numberOf? (((Json.float (d.mantissa < 0) x).text l).toList) = some d.value ↔
      ¬(Json.float (d.mantissa < 0) x).Tied d.value := by
  have hup := Scientific.equals_iff.1 h
  have htied : (Json.float (d.mantissa < 0) x).Tied d.value ↔ x.Tied |d.value| := by
    constructor
    · rintro ⟨_, _, heq, hx⟩
      obtain ⟨-, rfl⟩ := Json.float.inj heq
      exact hx
    · exact fun hx => ⟨_, _, rfl, hx⟩
  have hsign : d.mantissa < 0 ↔ d.value < 0 := by
    have hpower : (0 : ℚ) < 10 ^ d.scale := by positivity
    rw [Decimal.value, div_lt_iff₀ hpower, zero_mul, Int.cast_lt_zero]
  rw [htied, ← hup, ← x.value_shortest_even_eq_iff, hup, Json.text, String.toList_ofList,
    Json.render, Json.numberOf?_floatText, Option.some_inj]
  simp only [decide_eq_true_eq, hsign]
  split
  · next hneg => rw [abs_of_neg hneg, neg_eq_iff_eq_neg]
  · next hneg => rw [abs_of_nonneg (not_lt.1 hneg)]

/-- A number becomes a string with its text or a JSON number.  An integer becomes a JSON number if
and only if it is in the range of 64 bits.  A number with too many digits becomes a string.  The
text of a JSON number denotes the number, unless there is a tie. -/
theorem json_number_exact_iff (hn : Number n.toList) :
    ∃ q, numberOf? n.toList = some q ∧
      ((number n).json = .string n ∨ (number n).json.IsNumber) ∧
      ('.' ∉ n.toList → ((number n).json.IsNumber ↔ -2 ^ 63 ≤ q ∧ q < 2 ^ 63)) ∧
      (28 < places n.toList ∨ 2 ^ 96 ≤ natOfDigits (n.toList.filter Char.isDigit) →
        (number n).json = .string n) ∧
      ((number n).json.IsNumber → ∀ l : Json.Layout,
        (numberOf? ((number n).json.text l).toList = some q ↔ ¬(number n).json.Tied q)) := by
  refine ⟨_, Decimal.numberOf?_of_number hn, ?_⟩
  have hinteger : '.' ∉ n.toList →
      (written n.toList).value = (written n.toList).mantissa := fun hpoint => by
    have hplaces : (written n.toList).scale = 0 := Decimal.places_of_notMem hpoint
    rw [Decimal.value, hplaces, pow_zero, div_one]
  have hrange : InRange n.toList →
      ¬(28 < places n.toList ∨ 2 ^ 96 ≤ natOfDigits (n.toList.filter Char.isDigit)) := by
    rintro ⟨hplaces, hdigits⟩
    omega
  rcases json_number_cases hn with ⟨hjson, hfits⟩ | ⟨hjson, hpoint, hfits, hin⟩ |
    ⟨x, hjson, hpoint, hequal, hin⟩
  · refine ⟨.inl hjson, fun hpoint => ?_, fun _ => hjson, fun h => ?_⟩
    · rw [hinteger hpoint, ← fitsInt64_iff, hfits hpoint, hjson]
      simp [Json.IsNumber]
    · rw [hjson] at h
      exact h.elim
  · rw [hjson]
    refine ⟨.inr trivial, fun _ => ?_, fun h => absurd h (hrange hin), fun _ l => ?_⟩
    · rw [hinteger hpoint, ← fitsInt64_iff, hfits]
      simp [Json.IsNumber]
    · rw [hinteger hpoint]
      refine iff_of_true ?_ ?_
      · rw [Json.text, String.toList_ofList, Json.render, Json.numberOf?_integerText]
      · rintro ⟨_, _, heq, -⟩
        cases heq
  · rw [hjson]
    exact ⟨.inr trivial, fun h => absurd hpoint h, fun h => absurd h (hrange hin),
      fun _ l => numberOf?_text_float_iff hequal l⟩

theorem json_number_exact_iff_of_half :
    Number "2.50".toList ∧ (number "2.50").json.IsNumber ∧
      ∀ l : Json.Layout, (numberOf? ((number "2.50").json.text l).toList = some (5 / 2) ↔
        ¬(number "2.50").json.Tied (5 / 2)) := by
  have hnumber : Number "2.50".toList :=
    .positive (@Lexeme.Unsigned.fraction ['2'] ['5', '0'] ⟨by simp, by simp⟩ ⟨by simp, by simp⟩)
  obtain ⟨q, hq, -, -, -, hexact⟩ := json_number_exact_iff hnumber
  have hvalue : numberOf? "2.50".toList = some (5 / 2) := by decide +kernel
  obtain rfl := Option.some.inj (hvalue.symm.trans hq)
  exact ⟨hnumber, by decide +kernel, hexact (by decide +kernel)⟩

/-- The floating point number of `1348054195017183.3` is `1348054195017183.25`, and its text has the
even digit. -/
theorem json_number_of_tie :
    Number "1348054195017183.3".toList ∧
      numberOf? "1348054195017183.3".toList = some (13480541950171833 / 10) ∧
      (number "1348054195017183.3").json.IsNumber ∧
      (number "1348054195017183.3").json.text .compact = "1348054195017183.2" ∧
      numberOf? "1348054195017183.2".toList = some (13480541950171832 / 10) := by
  refine ⟨.positive ?_, ?_, ?_, ?_, ?_⟩
  · exact @Lexeme.Unsigned.fraction "1348054195017183".toList ['3'] ⟨by simp, by simp⟩
      ⟨by simp, by simp⟩
  · decide +kernel
  · decide +kernel
  · decide +kernel
  · decide +kernel

end Scalar
end ContentFilter
