import ContentFilter.Json.Read
import ContentFilter.Proofs.Text.Cutting
import ContentFilter.Proofs.Token.Grammar
import Mathlib.Algebra.Order.Field.Rat
import Mathlib.Data.Rat.Cast.Order
import Mathlib.Tactic.FieldSimp
import Mathlib.Tactic.Ring
/-!
# What number texts denote

The rational number that a text denotes (`Decimal.numberOf?`): digits with an optional minus sign,
an optional fraction and an optional exponent.  These are the numbers of a filter and those of
JSON, of which only the latter have exponents.

Nothing is lost between numbers and their texts.  A number of a filter denotes the decimal that it
writes (`Decimal.numberOf?_of_number`), which is the one that is read, unless it is out of range
(`Decimal.ofText?_of_number`).  The JSON text of an integer denotes the integer
(`Json.numberOf?_integerText`), and that of a floating point number denotes its shortest decimal
(`Json.numberOf?_floatText`).
-/

namespace ContentFilter

open Lexeme (Digits Unsigned Number)

namespace Decimal

/-! ## Denotation -/

/-- The number that digits denote of which some stand behind the point, with the exponent part
behind them, if there is one. -/
def scaled? (digits : List Char) (places : Nat) (r : List Char) : Option ℚ :=
  match Json.exponentPart r with
  | some (e, []) => some (natOfDigits digits * 10 ^ (e.getD 0 - places))
  | _ => none

/-- The number that a text without a sign denotes. -/
def magnitudeOf? (cs : List Char) : Option ℚ :=
  let whole := cs.takeWhile Char.isDigit
  if whole.isEmpty then none
  else
    match Json.fractionPart (cs.dropWhile Char.isDigit) with
    | some (fraction, r) => scaled? (whole ++ fraction.getD []) (fraction.getD []).length r
    | none => none

/-- The number that a text denotes, if it is the text of a number. -/
def numberOf? : List Char → Option ℚ
  | '-' :: r => (magnitudeOf? r).map (-·)
  | cs => magnitudeOf? cs

/-- The value of a decimal. -/
def value (d : Decimal) : ℚ := d.mantissa / 10 ^ d.scale

end Decimal

/-- The value of a decimal in scientific form. -/
def Scientific.value (s : Scientific) : ℚ := s.digits * 10 ^ s.exponent

namespace Decimal

variable {ds es cs r : List Char}

/-! ## Digits -/

lemma natOfDigits_eq (ds : List Char) : natOfDigits ds = Nat.ofDigitChars 10 ds 0 := rfl

lemma natOfDigits_append (ds es : List Char) :
    natOfDigits (ds ++ es) = natOfDigits ds * 10 ^ es.length + natOfDigits es := by
  simp only [natOfDigits_eq, Nat.ofDigitChars_append]
  rw [Nat.ofDigitChars_eq_ofDigitChars_zero, Nat.mul_comm]

@[simp] lemma natOfDigits_replicate (k : Nat) : natOfDigits (List.replicate k '0') = 0 := by
  rw [natOfDigits_eq, Nat.ofDigitChars_replicate_zero, Nat.mul_zero]

@[simp] lemma natOfDigits_digitsOf (n : Nat) : natOfDigits (digitsOf n) = n :=
  Nat.ofDigitChars_ten_toDigits

lemma digits_digitsOf (n : Nat) : Digits (digitsOf n) :=
  ⟨Nat.toDigits_ne_nil, fun _ h => Nat.isDigit_of_mem_toDigits (by decide) (by decide) h⟩

lemma digits_zero : Digits ['0'] := ⟨by simp, by simp⟩

lemma digits_replicate_append (h : Digits ds) (k : Nat) :
    Digits (List.replicate k '0' ++ ds) := by
  refine ⟨by simp [h.1], fun c hc => ?_⟩
  rcases List.mem_append.1 hc with hc | hc
  · rw [List.eq_of_mem_replicate hc]; decide
  · exact h.2 c hc

lemma digits_append_replicate (h : Digits ds) (k : Nat) : Digits (ds ++ List.replicate k '0') := by
  refine ⟨by simp [h.1], fun c hc => ?_⟩
  rcases List.mem_append.1 hc with hc | hc
  · exact h.2 c hc
  · rw [List.eq_of_mem_replicate hc]; decide

lemma span_digits (h : Digits ds) :
    ds.takeWhile Char.isDigit = ds ∧ ds.dropWhile Char.isDigit = [] :=
  ⟨List.takeWhile_eq_self_iff.2 h.2, List.dropWhile_eq_nil_iff.2 h.2⟩

lemma span_digits_point (h : Digits ds) (r : List Char) :
    (ds ++ '.' :: r).takeWhile Char.isDigit = ds ∧
      (ds ++ '.' :: r).dropWhile Char.isDigit = '.' :: r :=
  Text.span_append h.2 (by simp)

/-! ## Parts of a number text -/

@[simp] lemma scaled?_nil (ds : List Char) (k : Nat) :
    scaled? ds k [] = some ((natOfDigits ds : ℚ) * 10 ^ (-k : ℤ)) := by
  simp [scaled?, Json.exponentPart]

lemma scaled?_exponent (ds : List Char) (k : Nat) (e : Int) :
    scaled? ds k ('e' :: (if e < 0 then '-' else '+') :: digitsOf e.natAbs) =
      some ((natOfDigits ds : ℚ) * 10 ^ (e - k)) := by
  obtain ⟨htake, hdrop⟩ := span_digits (digits_digitsOf e.natAbs)
  have hne : (digitsOf e.natAbs).isEmpty = false := by
    simpa using (digits_digitsOf e.natAbs).1
  by_cases he : e < 0
  · have hvalue : -|e| = e := by rw [abs_of_neg he, neg_neg]
    simp [scaled?, Json.exponentPart, he, htake, hdrop, hne, hvalue]
  · have hvalue : |e| = e := abs_of_nonneg (by omega)
    simp [scaled?, Json.exponentPart, he, htake, hdrop, hne, hvalue]

/-- A text that goes on behind digits without a fraction. -/
lemma magnitudeOf?_whole (h : Digits ds) (hr : ∀ c ∈ r.head?, c.isDigit = false ∧ c ≠ '.') :
    magnitudeOf? (ds ++ r) = scaled? ds 0 r := by
  obtain ⟨htake, hdrop⟩ := Text.span_append h.2 fun c hc => (hr c hc).1
  have hfraction : Json.fractionPart r = some (none, r) := by
    unfold Json.fractionPart
    split
    · next s => exact absurd rfl (hr '.' rfl).2
    · rfl
  simp [magnitudeOf?, htake, hdrop, hfraction, h.1]

lemma magnitudeOf?_fraction (h : Digits ds) (hes : Digits es)
    (hr : ∀ c ∈ r.head?, c.isDigit = false) :
    magnitudeOf? (ds ++ '.' :: (es ++ r)) = scaled? (ds ++ es) es.length r := by
  obtain ⟨htake, hdrop⟩ := span_digits_point h (es ++ r)
  obtain ⟨htake', hdrop'⟩ := Text.span_append hes.2 hr
  simp [magnitudeOf?, htake, hdrop, Json.fractionPart, htake', hdrop', h.1, hes.1]

/-- Digits denote the number that they write. -/
lemma magnitudeOf?_digits (h : Digits ds) : magnitudeOf? ds = some (natOfDigits ds : ℚ) := by
  simpa using magnitudeOf?_whole (r := []) h (by simp)

/-- Digits with a point among them denote a fraction. -/
lemma magnitudeOf?_point (h : Digits ds) (hes : Digits es) :
    magnitudeOf? (ds ++ '.' :: es) =
      some ((natOfDigits (ds ++ es) : ℚ) * 10 ^ (-es.length : ℤ)) := by
  have hread := magnitudeOf?_fraction (r := []) h hes (by simp)
  rwa [List.append_nil, scaled?_nil] at hread

/-- Without a minus sign in front a text denotes its magnitude. -/
lemma numberOf?_of_head (h : cs.head? ≠ some '-') : numberOf? cs = magnitudeOf? cs := by
  unfold numberOf?
  split
  · exact absurd rfl h
  · rfl

end Decimal

/-! ## Texts of JSON numbers -/

namespace Json

open Decimal

/-- The sign in front of a text is that of the number. -/
lemma numberOf?_sign {cs : List Char} {q : ℚ} (negative : Bool) (h : magnitudeOf? cs = some q) :
    numberOf? ((if negative then ['-'] else []) ++ cs) = some (if negative then -q else q) := by
  cases negative with
  | true => simp [numberOf?, h]
  | false =>
    have hhead : cs.head? ≠ some '-' := by
      cases cs with
      | nil => simp
      | cons c r =>
        rintro heq
        obtain rfl : c = '-' := by simpa using heq
        simp [magnitudeOf?] at h
    simpa [numberOf?_of_head hhead] using h

/-- The JSON text of an integer denotes the integer. -/
theorem numberOf?_integerText (i : Int) : numberOf? (integerText i) = some (i : ℚ) := by
  have hmagnitude : magnitudeOf? (digitsOf i.natAbs) = some (i.natAbs : ℚ) := by
    rw [magnitudeOf?_digits (digits_digitsOf _), natOfDigits_digitsOf]
  have hsign := numberOf?_sign (decide (i < 0)) hmagnitude
  simp only [decide_eq_true_eq] at hsign
  rw [integerText, hsign]
  congr 1
  split
  · next h => rw [← Int.cast_natCast, ← Int.cast_neg]; congr 1; omega
  · next h => rw [← Int.cast_natCast]; congr 1; omega

lemma natOfDigits_zero : natOfDigits ['0'] = 0 := by decide

/-- A whole number with zeros behind its digits, written with a point. -/
lemma magnitudeOf?_integral {ds : List Char} (h : Digits ds) (k : Nat) :
    magnitudeOf? (ds ++ List.replicate k '0' ++ ".0".toList) =
      some ((natOfDigits ds : ℚ) * 10 ^ k) := by
  have hread := magnitudeOf?_point (digits_append_replicate h k) digits_zero
  rw [natOfDigits_append, natOfDigits_append, natOfDigits_replicate, natOfDigits_zero] at hread
  simpa using hread

/-- A number with a point among its digits. -/
lemma magnitudeOf?_pointed {ds : List Char} (h : Digits ds) {n : Nat} (hpos : 0 < n)
    (hn : n < ds.length) :
    magnitudeOf? (ds.take n ++ '.' :: ds.drop n) =
      some ((natOfDigits ds : ℚ) * 10 ^ ((n : ℤ) - ds.length)) := by
  have htake : Digits (ds.take n) :=
    ⟨by simpa [Nat.pos_iff_ne_zero.1 hpos] using h.1, fun c hc => h.2 c (List.mem_of_mem_take hc)⟩
  have hdrop : Digits (ds.drop n) :=
    ⟨by simpa using hn, fun c hc => h.2 c (List.mem_of_mem_drop hc)⟩
  rw [magnitudeOf?_point htake hdrop, List.take_append_drop, List.length_drop, Nat.cast_sub hn.le,
    neg_sub]

/-- A number below one, with zeros between the point and its digits. -/
lemma magnitudeOf?_small {ds : List Char} (h : Digits ds) (k : Nat) :
    magnitudeOf? ("0.".toList ++ List.replicate k '0' ++ ds) =
      some ((natOfDigits ds : ℚ) * 10 ^ (-(k + ds.length : ℤ))) := by
  have hread := magnitudeOf?_point digits_zero (digits_replicate_append h k)
  rw [natOfDigits_append, natOfDigits_append, natOfDigits_replicate, natOfDigits_zero] at hread
  simpa using hread

/-- Digits with a point behind the first one, if there are more. -/
def pointed : List Char → List Char
  | [] => []
  | [d] => [d]
  | d :: r => d :: '.' :: r

lemma magnitudeOf?_exponent {d : Char} {r : List Char} (h : Digits (d :: r)) (e : Int) :
    magnitudeOf? (pointed (d :: r) ++ 'e' :: (if e < 0 then '-' else '+') :: digitsOf e.natAbs) =
      some ((natOfDigits (d :: r) : ℚ) * 10 ^ (e - r.length)) := by
  have hd : Digits [d] := ⟨by simp, fun c hc => h.2 c (by simp_all)⟩
  cases r with
  | nil =>
    rw [pointed, magnitudeOf?_whole hd (by simp), scaled?_exponent]
    simp
  | cons c r =>
    have hr : Digits (c :: r) := ⟨by simp, fun c hc => h.2 c (List.mem_cons_of_mem _ hc)⟩
    have hread := magnitudeOf?_fraction
      (r := 'e' :: (if e < 0 then '-' else '+') :: digitsOf e.natAbs) hd hr (by simp)
    rw [scaled?_exponent] at hread
    simpa [pointed] using hread

/-- The JSON text of a decimal denotes the decimal, whichever form it has. -/
theorem magnitudeOf?_scientificText (s : Scientific) :
    magnitudeOf? (scientificText s) = some s.value := by
  have hdigits := digits_digitsOf s.digits
  have hvalue : natOfDigits (digitsOf s.digits) = s.digits := natOfDigits_digitsOf _
  unfold scientificText Scientific.value
  generalize digitsOf s.digits = ds at *
  have hlength := List.length_pos_iff.2 hdigits.1
  simp only
  split
  · next hzero =>
    have hread := magnitudeOf?_integral digits_zero 0
    rw [hzero]
    simpa [natOfDigits_zero] using hread
  · split
    · next hlead =>
      split
      · next he =>
        rw [magnitudeOf?_integral hdigits, hvalue, ← zpow_natCast, Int.toNat_of_nonneg he]
      · split
        · next he hpoint =>
          have hn : ((s.exponent + ds.length - 1 + 1).toNat : ℤ) - ds.length = s.exponent := by
            omega
          rw [magnitudeOf?_pointed hdigits (by omega) (by omega), hvalue, hn]
        · next he hpoint =>
          have hn :
              -(((-(s.exponent + ds.length - 1) - 1).toNat : ℤ) + ds.length) = s.exponent := by
            omega
          rw [magnitudeOf?_small hdigits, hvalue, hn]
    · obtain ⟨d, r, rfl⟩ := List.exists_cons_of_ne_nil hdigits.1
      have hn : s.exponent + ((d :: r).length : ℤ) - 1 - r.length = s.exponent := by
        rw [List.length_cons]; push_cast; ring
      have hread := magnitudeOf?_exponent hdigits (s.exponent + ((d :: r).length : ℤ) - 1)
      rw [hn, hvalue] at hread
      exact hread

/-- The JSON text of a floating point number denotes its shortest decimal. -/
theorem numberOf?_floatText (negative : Bool) (x : Binary64) :
    numberOf? (floatText negative x) =
      some (if negative then -(x.shortest .even).value else (x.shortest .even).value) :=
  numberOf?_sign negative (magnitudeOf?_scientificText _)

end Json

/-! ## Texts of decimals -/

namespace Decimal

variable {cs ds es w : List Char} {text : String}

/-- The number of digits behind the point. -/
def places (cs : List Char) : Nat := (cs.dropWhile (· ≠ '.')).tail.length

lemma filter_digits (h : Digits ds) : ds.filter Char.isDigit = ds :=
  List.filter_eq_self.2 h.2

lemma point_notMem (h : Digits ds) : '.' ∉ ds := fun hmem => by cases h.2 _ hmem

/-- Without a point there are no digits behind it. -/
lemma places_of_notMem (h : '.' ∉ cs) : places cs = 0 := by
  have hdrop : cs.dropWhile (· ≠ '.') = [] :=
    List.dropWhile_eq_nil_iff.2 fun c hc => decide_eq_true (ne_of_mem_of_not_mem hc h)
  rw [places, hdrop, List.tail_nil, List.length_nil]

lemma places_append (h : '.' ∉ cs) (es : List Char) : places (cs ++ '.' :: es) = es.length := by
  have hcs : ∀ c ∈ cs, decide (c ≠ '.') = true :=
    fun c hc => decide_eq_true (ne_of_mem_of_not_mem hc h)
  rw [places, List.dropWhile_append_of_pos hcs, List.dropWhile_cons_of_neg (by decide),
    List.tail_cons]

lemma places_minus (w : List Char) : places ('-' :: w) = places w := by
  simp [places]

lemma magnitudeOf?_of_unsigned (h : Unsigned w) :
    magnitudeOf? w = some ((natOfDigits (w.filter Char.isDigit) : ℚ) * 10 ^ (-places w : ℤ)) := by
  cases h with
  | whole hds =>
    rw [magnitudeOf?_digits hds, filter_digits hds, places_of_notMem (point_notMem hds)]
    simp
  | fraction hds hes =>
    rw [magnitudeOf?_point hds hes, places_append (point_notMem hds), List.filter_append,
      filter_digits hds, List.filter_cons_of_neg (by decide), filter_digits hes]

/-- The parts of an unsigned number are its digits, cut where the point is. -/
lemma splitPoint?_of_unsigned (h : Unsigned w) :
    ∃ whole fraction, splitPoint? w = some (whole, fraction) ∧
      whole ++ fraction = w.filter Char.isDigit ∧ fraction.length = places w := by
  cases h with
  | whole hds =>
    obtain ⟨htake, hdrop⟩ := span_digits hds
    refine ⟨w, [], ?_, by simp [filter_digits hds], by simp [places_of_notMem (point_notMem hds)]⟩
    simp [splitPoint?, htake, hdrop, hds.1]
  | @fraction ds es hds hes =>
    obtain ⟨htake, hdrop⟩ := span_digits_point hds es
    refine ⟨ds, es, ?_, by simp [List.filter_append, filter_digits hds, filter_digits hes],
      (places_append (point_notMem hds) es).symm⟩
    have hall : es.all Char.isDigit = true := List.all_eq_true.2 hes.2
    simp [splitPoint?, htake, hdrop, hds.1, hes.1, hall]

/-- The decimal that a text writes, in range or not. -/
def written (cs : List Char) : Decimal :=
  let n := natOfDigits (cs.filter Char.isDigit)
  ⟨if cs.head? = some '-' then -n else n, places cs⟩

lemma natAbs_written (cs : List Char) :
    (written cs).mantissa.natAbs = natOfDigits (cs.filter Char.isDigit) := by
  simp only [written]
  split
  · rw [Int.natAbs_neg, Int.natAbs_natCast]
  · exact Int.natAbs_natCast _

/-- The decimal that a text writes is within the range of decimals. -/
def InRange (cs : List Char) : Prop :=
  places cs ≤ 28 ∧ natOfDigits (cs.filter Char.isDigit) < 2 ^ 96

instance (cs : List Char) : Decidable (InRange cs) := inferInstanceAs (Decidable (_ ∧ _))

lemma written_minus (w : List Char) :
    (written ('-' :: w)).mantissa = -natOfDigits (w.filter Char.isDigit) := by
  simp [written]

lemma head_ne_minus (h : Unsigned w) : w.head? ≠ some '-' := by
  intro hhead
  have := h.head
  rw [hhead] at this
  cases this

lemma written_of_unsigned (h : Unsigned w) :
    written w = ⟨natOfDigits (w.filter Char.isDigit), places w⟩ := by
  simp only [written, if_neg (head_ne_minus h)]

/-- A number denotes the decimal that it writes. -/
theorem numberOf?_of_number (h : Number cs) : numberOf? cs = some (written cs).value := by
  cases h with
  | positive hw =>
    rw [numberOf?_of_head (head_ne_minus hw), magnitudeOf?_of_unsigned hw, written_of_unsigned hw,
      value, zpow_neg, zpow_natCast, div_eq_mul_inv, Int.cast_natCast]
  | @negative w hw =>
    rw [numberOf?, magnitudeOf?_of_unsigned hw, Option.map_some, value, written_minus, written,
      places_minus, zpow_neg, zpow_natCast, div_eq_mul_inv, Int.cast_neg, Int.cast_natCast, neg_mul]

/-- A number is read as the decimal that it writes, unless that is out of range. -/
theorem ofText?_of_number (h : Number text.toList) :
    ofText? text = if InRange text.toList then some (written text.toList) else none := by
  unfold ofText? InRange mantissaBound
  generalize text.toList = cs at h
  cases h with
  | positive hw =>
    obtain ⟨whole, fraction, hsplit, hdigits, hplaces⟩ := splitPoint?_of_unsigned hw
    obtain ⟨c, r, rfl⟩ := List.exists_cons_of_ne_nil fun h => Lexeme.not_unsigned_nil (h ▸ hw)
    have hc : c ≠ '-' := fun h => head_ne_minus hw (by rw [h]; rfl)
    simp [hc, hsplit, hdigits, hplaces, written_of_unsigned hw]
  | @negative w hw =>
    obtain ⟨whole, fraction, hsplit, hdigits, hplaces⟩ := splitPoint?_of_unsigned hw
    simp [hsplit, hdigits, hplaces, written, places_minus]

end Decimal
end ContentFilter
