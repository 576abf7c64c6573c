import ContentFilter.Decimal.Shortest
import ContentFilter.Proofs.Decimal.Denotation
import Mathlib.Algebra.Order.Field.Basic
import Mathlib.Tactic.Linarith
/-!
# Ties between shortest decimals

Of two shortest decimals that are equally near to a floating point number, one rule takes the even
one and the other the greater one.  They differ for the numbers that are midway between two
neighbours on a grid, both of which round to the number and the lower one of which is even
(`Binary64.Midway`), and for no others (`Binary64.value_shortest_even_eq_iff`).

Both rules search the same grids, and whether there is a neighbour on a grid does not depend on the
rule, so both decimals stand on the same grid.  How many digits suffice does not matter to that.
-/

namespace ContentFilter

/-! ## Values -/

section Powers

variable {b : Nat} {e : Int}

lemma zpow_of_nonneg (h : 0 ≤ e) : (b : ℚ) ^ e = (Nat.pow b e.toNat : ℕ) := by
  rw [Nat.pow_eq, Nat.cast_pow, ← zpow_natCast, Int.toNat_of_nonneg h]

lemma zpow_of_neg (h : ¬0 ≤ e) : (b : ℚ) ^ e = ((Nat.pow b (-e).toNat : ℕ) : ℚ)⁻¹ := by
  rw [← zpow_of_nonneg (by omega), zpow_neg, inv_inv]

/-- A whole number times a power as a fraction. -/
lemma mul_zpow_eq_div (m b : Nat) (e : Int) :
    (m : ℚ) * b ^ e =
      (if 0 ≤ e then (m * Nat.pow b e.toNat, 1) else (m, Nat.pow b (-e).toNat)).1 /
        (if 0 ≤ e then (m * Nat.pow b e.toNat, 1) else (m, Nat.pow b (-e).toNat)).2 := by
  split
  · next h => rw [zpow_of_nonneg h, Nat.cast_mul, Nat.cast_one, div_one]
  · next h => rw [zpow_of_neg h, div_eq_mul_inv]

lemma tenPow_pos (e : Int) : (0 : ℚ) < 10 ^ e := zpow_pos (by norm_num) e

lemma tenPow_add (e : Int) (j : Nat) : (10 : ℚ) ^ (e + j) = 10 ^ e * 10 ^ j := by
  rw [zpow_add₀ (by norm_num), zpow_natCast]

end Powers

namespace Scientific

variable {s : Scientific} {d : Decimal}

lemma ratio_pos (s : Scientific) : 0 < s.ratio.2 := by
  unfold ratio
  split
  · exact Nat.one_pos
  · exact Nat.pow_pos (by decide)

lemma value_eq_ratio (s : Scientific) : s.value = s.ratio.1 / s.ratio.2 := by
  rw [value, ← Nat.cast_ofNat, mul_zpow_eq_div]
  rfl

/-- A decimal number equals the magnitude of a decimal if their values do. -/
theorem equals_iff : s.equals d = true ↔ s.value = |d.value| := by
  have hratio : (s.ratio.2 : ℚ) ≠ 0 := by exact_mod_cast (ratio_pos s).ne'
  have hpower : (10 : ℚ) ^ d.scale ≠ 0 := by positivity
  have habs : |d.value| = d.mantissa.natAbs / 10 ^ d.scale := by
    rw [Decimal.value, abs_div, abs_of_nonneg (by positivity : (0 : ℚ) ≤ 10 ^ d.scale)]
    simp
  rw [equals, decide_eq_true_eq, value_eq_ratio, habs, div_eq_div_iff hratio hpower]
  have hcast : ((Decimal.tenTo d.scale : ℕ) : ℚ) = 10 ^ d.scale := by simp [Decimal.tenTo]
  rw [← hcast]
  norm_cast

end Scientific

namespace Binary64

variable {x : Binary64} {s : Scientific} {tie : Tie} {e : Int} {k : Nat}

/-- The value of a floating point number. -/
def value (x : Binary64) : ℚ := x.mantissa * 2 ^ x.exponent

lemma ratio_pos (x : Binary64) : 0 < x.ratio.2 := by
  unfold ratio
  split
  · exact Nat.one_pos
  · exact Nat.pow_pos (by decide)

lemma value_eq_ratio (x : Binary64) : x.value = x.ratio.1 / x.ratio.2 := by
  rw [value, ← Nat.cast_ofNat, mul_zpow_eq_div]
  rfl

/-! ## Neighbours on a grid -/

/-- The number in units of a power of ten, as a fraction. -/
def units (x : Binary64) (e : Int) : Nat × Nat :=
  if 0 ≤ e then (x.ratio.1, x.ratio.2 * Decimal.tenTo e.toNat)
  else (x.ratio.1 * Decimal.tenTo (-e).toNat, x.ratio.2)

lemma units_pos (x : Binary64) (e : Int) : 0 < (x.units e).2 := by
  unfold units
  split
  · exact Nat.mul_pos x.ratio_pos (Nat.pow_pos (by decide))
  · exact x.ratio_pos

/-- The digits of the lower neighbour of the number on a grid. -/
def lower (x : Binary64) (e : Int) : Nat := (x.units e).1 / (x.units e).2

/-- The number is halfway between its two neighbours on a grid. -/
def Halfway (x : Binary64) (e : Int) : Prop :=
  2 * ((x.units e).1 % (x.units e).2) = (x.units e).2

instance (x : Binary64) (e : Int) : Decidable (x.Halfway e) := inferInstanceAs (Decidable (_ = _))

lemma value_eq_units (x : Binary64) (e : Int) :
    x.value = (x.units e).1 / (x.units e).2 * 10 ^ e := by
  have hratio : (x.ratio.2 : ℚ) ≠ 0 := by exact_mod_cast x.ratio_pos.ne'
  unfold units Decimal.tenTo
  rw [value_eq_ratio]
  split
  · next h =>
    have hpower := zpow_of_nonneg (b := 10) h
    push_cast at hpower ⊢
    rw [hpower]
    field_simp
  · next h =>
    have hpower := zpow_of_neg (b := 10) h
    push_cast at hpower ⊢
    rw [hpower]
    field_simp

/-- What is chosen of the two neighbours, depending on which of them round to the number and on how
far it is from the lower one. -/
lemma neighbour?_eq (tie : Tie) (x : Binary64) (e : Int) :
    x.neighbour? tie e =
      match x.readsBack ⟨x.lower e, e⟩, x.readsBack ⟨x.lower e + 1, e⟩ with
      | true, true =>
        if 2 * ((x.units e).1 % (x.units e).2) < (x.units e).2 ∨
            (x.Halfway e ∧ tie.takesBelow (x.lower e)) then
          some ⟨x.lower e, e⟩
        else some ⟨x.lower e + 1, e⟩
      | true, false => some ⟨x.lower e, e⟩
      | false, true => some ⟨x.lower e + 1, e⟩
      | false, false => none := rfl

/-- A number midway between two neighbours on a grid that both round to it, the lower one of which
is even. -/
structure Midway (x : Binary64) (k : Nat) (e : Int) : Prop where
  even : k % 2 = 0
  middle : 2 * x.value = (2 * k + 1) * 10 ^ e
  below : x.readsBack ⟨k, e⟩ = true
  above : x.readsBack ⟨k + 1, e⟩ = true

lemma div_and_mod_iff {n d : Nat} (hd : 0 < d) :
    n / d = k ∧ 2 * (n % d) = d ↔ 2 * n = (2 * k + 1) * d := by
  constructor
  · rintro ⟨rfl, hmod⟩
    calc 2 * n = 2 * (d * (n / d) + n % d) := by rw [Nat.div_add_mod]
      _ = 2 * (n / d) * d + 2 * (n % d) := by ring
      _ = (2 * (n / d) + 1) * d := by rw [hmod]; ring
  · intro h
    have hdiv : n / d = k := Nat.div_eq_of_lt_le (by nlinarith) (by nlinarith)
    have hmod := Nat.div_add_mod n d
    rw [hdiv] at hmod
    exact ⟨hdiv, by nlinarith⟩

lemma middle_iff : 2 * x.value = (2 * k + 1) * 10 ^ e ↔ x.lower e = k ∧ x.Halfway e := by
  have hunits : ((x.units e).2 : ℚ) ≠ 0 := by exact_mod_cast (x.units_pos e).ne'
  have hpower : (10 : ℚ) ^ e ≠ 0 := (tenPow_pos e).ne'
  rw [lower, Halfway, div_and_mod_iff (x.units_pos e), value_eq_units x e, ← mul_assoc,
    mul_left_inj' hpower, ← mul_div_assoc, div_eq_iff hunits]
  norm_cast

/-- Both ties choose the same neighbour, unless the number is midway. -/
lemma neighbour?_even_eq_or (x : Binary64) (e : Int) :
    x.neighbour? .even e = x.neighbour? .up e ∨
      ∃ k, x.Midway k e ∧ x.neighbour? .up e = some ⟨k + 1, e⟩ := by
  by_cases hmid : x.Midway (x.lower e) e
  · have hhalf : 2 * ((x.units e).1 % (x.units e).2) = (x.units e).2 := (middle_iff.1 hmid.middle).2
    refine .inr ⟨_, hmid, ?_⟩
    simp [neighbour?_eq, hmid.below, hmid.above, hhalf, Tie.takesBelow]
  · refine .inl ?_
    rw [neighbour?_eq, neighbour?_eq]
    split
    · next hbelow habove =>
      have hnot : ¬(x.Halfway e ∧ x.lower e % 2 = 0) := fun ⟨hhalf, heven⟩ =>
        hmid ⟨heven, middle_iff.2 ⟨rfl, hhalf⟩, hbelow, habove⟩
      simp [Tie.takesBelow, hnot]
    all_goals rfl

lemma Midway.neighbour?_even (h : x.Midway k e) : x.neighbour? .even e = some ⟨k, e⟩ := by
  obtain ⟨rfl, hhalf⟩ := middle_iff.1 h.middle
  simp [neighbour?_eq, hhalf, h.below, h.above, h.even, Tie.takesBelow]

lemma lower_mul_le (x : Binary64) (e : Int) :
    x.lower e * 10 ^ e ≤ x.value ∧ x.value ≤ (x.lower e + 1) * 10 ^ e := by
  have hunits : (0 : ℚ) < (x.units e).2 := by exact_mod_cast x.units_pos e
  have hpower := tenPow_pos e
  rw [value_eq_units x e, mul_le_mul_iff_of_pos_right hpower, mul_le_mul_iff_of_pos_right hpower,
    le_div_iff₀ hunits, div_le_iff₀ hunits]
  constructor
  · exact_mod_cast Nat.div_mul_le_self _ _
  · have hlt := Nat.lt_div_mul_add (a := (x.units e).1) (x.units_pos e)
    rw [← Nat.succ_mul] at hlt
    exact_mod_cast hlt.le

lemma eq_of_neighbour? (h : x.neighbour? tie e = some s) :
    s = ⟨x.lower e, e⟩ ∨ s = ⟨x.lower e + 1, e⟩ := by
  rw [neighbour?_eq] at h
  split at h
  · split at h
    · exact .inl (Option.some.inj h).symm
    · exact .inr (Option.some.inj h).symm
  · exact .inl (Option.some.inj h).symm
  · exact .inr (Option.some.inj h).symm
  · cases h

/-- A neighbour stands on the grid, not farther than the next point. -/
lemma abs_sub_le_of_neighbour? (h : x.neighbour? tie e = some s) :
    s.exponent = e ∧ |s.value - x.value| ≤ 10 ^ e := by
  obtain ⟨hlow, hhigh⟩ := lower_mul_le x e
  rcases eq_of_neighbour? h with rfl | rfl
  · refine ⟨rfl, abs_le.2 ⟨?_, ?_⟩⟩ <;> simp only [Scientific.value] <;> linarith
  · refine ⟨rfl, abs_le.2 ⟨?_, ?_⟩⟩ <;> simp only [Scientific.value] <;> push_cast <;> linarith

/-- Whether there is a neighbour does not depend on the tie. -/
lemma neighbour?_eq_none_iff (tie : Tie) (x : Binary64) (e : Int) :
    x.neighbour? tie e = none ↔ x.neighbour? .up e = none := by
  rw [neighbour?_eq, neighbour?_eq]
  split
  · split <;> split <;> simp
  all_goals simp

/-! ## Shortest decimals -/

/-- The number is midway between the given decimal, whose last digit is odd, and the next lower one
with an even last digit, and both round to it. -/
def Tied (x : Binary64) (q : ℚ) : Prop := ∃ k e, x.Midway k e ∧ q = (k + 1) * 10 ^ e

lemma Midway.pos (h : x.Midway k e) (hx : x.mantissa ≠ 0) : 0 < k := by
  refine Nat.pos_of_ne_zero ?_
  rintro rfl
  have hzero : (Scientific.mk 0 e).ratio.1 = 0 := by
    unfold Scientific.ratio
    split
    · exact Nat.zero_mul _
    · rfl
  have hread := h.below
  rw [readsBack, decide_eq_true_eq, hzero] at hread
  exact hx (by rw [← hread]; rfl)

/-- The digits of a number on a finer grid are a multiple of ten. -/
lemma even_of_mul_eq {m n : Nat} {e' : Int} (hlt : e < e') (h : (m * 10 ^ e' : ℚ) = n * 10 ^ e) :
    n % 2 = 0 := by
  obtain ⟨j, hj⟩ := Int.eq_ofNat_of_zero_le (show 0 ≤ e' - (e + 1) by omega)
  obtain rfl : e' = e + (j + 1 : ℕ) := by push_cast; omega
  have hdigits : (m * 10 ^ (j + 1) : ℚ) = n := by
    refine mul_right_cancel₀ (tenPow_pos e).ne' ?_
    rw [← h, tenPow_add]
    ring
  have hnat : m * 10 ^ (j + 1) = n := by exact_mod_cast hdigits
  rw [← hnat, pow_succ, ← mul_assoc]
  omega

/-- The upper neighbour of a number that is midway is at most a step away on no grid but that
one. -/
lemma Midway.exponent_eq (h : x.Midway k e) (hs : s.value = (k + 1) * 10 ^ e)
    (hnear : |s.value - x.value| ≤ 10 ^ s.exponent) : s.exponent = e := by
  have hpower := tenPow_pos e
  have hdist : |s.value - x.value| = 10 ^ e / 2 := by
    have hsub : s.value - x.value = 10 ^ e / 2 := by linarith [h.middle]
    rw [hsub, abs_of_pos (by linarith)]
  rcases lt_trichotomy s.exponent e with hlt | heq | hgt
  · -- on a finer grid a step is at most a fifth of the distance
    exfalso
    obtain ⟨j, hj⟩ := Int.eq_ofNat_of_zero_le (show 0 ≤ e - (s.exponent + 1) by omega)
    have he : e = s.exponent + (j + 1 : ℕ) := by push_cast; omega
    have hfine := tenPow_pos s.exponent
    have hstep : (1 : ℚ) ≤ 10 ^ j := one_le_pow₀ (by norm_num)
    rw [hdist, he, tenPow_add, pow_succ] at hnear
    nlinarith
  · exact heq
  · -- on a coarser grid the upper neighbour would have even digits
    have heven := even_of_mul_eq hgt (n := k + 1) (by push_cast; exact hs)
    have hlower := h.even
    omega

/-- The first result of a search is found at the same place by another search that finds something
at the same places. -/
lemma findSome?_eq_some_of_none_iff {α β : Type} {f : Tie → α → Option β} {l : List α} {b : β}
    (hnone : ∀ tie a, f tie a = none ↔ f .up a = none) (h : l.findSome? (f .up) = some b) :
    ∃ a, ∀ tie, ∃ c, f tie a = some c ∧ l.findSome? (f tie) = some c := by
  obtain ⟨before, a, after, rfl, ha, hbefore⟩ := List.findSome?_eq_some_iff.1 h
  refine ⟨a, fun tie => ?_⟩
  have hfound : f tie a ≠ none := by
    rw [Ne, hnone, ha]
    simp
  obtain ⟨c, hc⟩ := Option.ne_none_iff_exists'.1 hfound
  exact ⟨c, hc, List.findSome?_eq_some_iff.2
    ⟨before, a, after, rfl, hc, fun y hy => (hnone tie y).2 (hbefore y hy)⟩⟩

lemma value_trim (s : Scientific) :
    (if s.digits % 10 = 0 then ⟨s.digits / 10, s.exponent + 1⟩ else s : Scientific).value =
      s.value := by
  split
  · next h =>
    have hdigits : (s.digits : ℚ) = (s.digits / 10 : ℕ) * 10 := by
      exact_mod_cast (Nat.div_mul_cancel (Nat.dvd_of_mod_eq_zero h)).symm
    have hstep := tenPow_add s.exponent 1
    rw [Scientific.value, Scientific.value, hdigits]
    push_cast at hstep ⊢
    rw [hstep]
    ring
  · rfl

/-- The shortest decimal is zero, or the whole number that stands in for one if there is none, or
a neighbour on a grid, the same grid for both ties. -/
lemma shortest_cases (x : Binary64) :
    x.mantissa = 0 ∧ (∀ tie, x.shortest tie = ⟨0, 0⟩) ∨
      x.mantissa ≠ 0 ∧ (∀ tie, x.shortest tie = ⟨x.ratio.1, 0⟩) ∨
      x.mantissa ≠ 0 ∧ ∃ e, ∀ tie, ∃ s, x.neighbour? tie e = some s ∧
        (x.shortest tie).value = s.value := by
  by_cases hx : x.mantissa = 0
  · exact .inl ⟨hx, fun tie => by rw [shortest, if_pos hx]⟩
  · refine .inr ?_
    have hnone : ∀ tie (n : Nat),
        x.neighbour? tie (decimalPoint x.ratio.1 x.ratio.2 - (n + 1 : Nat)) = none ↔
          x.neighbour? .up (decimalPoint x.ratio.1 x.ratio.2 - (n + 1 : Nat)) = none :=
      fun tie n => neighbour?_eq_none_iff tie x _
    cases hup : (List.range 17).findSome? fun n : Nat =>
        x.neighbour? .up (decimalPoint x.ratio.1 x.ratio.2 - (n + 1 : Nat)) with
    | none =>
      refine .inl ⟨hx, fun tie => ?_⟩
      rw [List.findSome?_eq_none_iff] at hup
      have hsearch := List.findSome?_eq_none_iff.2 fun n hn => (hnone tie n).2 (hup n hn)
      rw [shortest, if_neg hx]
      simp only [hsearch]
    | some b =>
      refine .inr ⟨hx, ?_⟩
      obtain ⟨n, hn⟩ := findSome?_eq_some_of_none_iff hnone hup
      refine ⟨decimalPoint x.ratio.1 x.ratio.2 - (n + 1 : Nat), fun tie => ?_⟩
      obtain ⟨s, hs, hsearch⟩ := hn tie
      refine ⟨s, hs, ?_⟩
      rw [shortest, if_neg hx]
      simp only [hsearch]
      exact value_trim s

/-- The upper neighbour of a number that is midway is not the numerator of the number. -/
lemma ratio_ne_of_midway (hx : x.mantissa ≠ 0) (h : x.Midway k e) :
    (x.ratio.1 : ℚ) ≠ (k + 1) * 10 ^ e := by
  intro heq
  have hpos := h.pos hx
  have hratio : (x.ratio.2 : ℚ) ≠ 0 := by exact_mod_cast x.ratio_pos.ne'
  have hmiddle := h.middle
  rw [value_eq_ratio, heq, mul_div_assoc', div_eq_iff hratio] at hmiddle
  have hcancel : (2 * (k + 1) : ℚ) = (2 * k + 1) * x.ratio.2 := by
    refine mul_right_cancel₀ (tenPow_pos e).ne' ?_
    linarith
  have hnat : 2 * (k + 1) = (2 * k + 1) * x.ratio.2 := by exact_mod_cast hcancel
  have hden := x.ratio_pos
  rcases Nat.lt_or_ge 1 x.ratio.2 with hlarge | hsmall
  · nlinarith
  · have hone : x.ratio.2 = 1 := by omega
    rw [hone] at hnat
    omega

/-- The shortest decimals of the two ties are the same number, unless the floating point number is
midway between them. -/
theorem value_shortest_even_eq_iff (x : Binary64) :
    (x.shortest .even).value = (x.shortest .up).value ↔ ¬x.Tied (x.shortest .up).value := by
  rcases shortest_cases x with ⟨-, hzero⟩ | ⟨hx, hwhole⟩ | ⟨-, e, hfound⟩
  · refine iff_of_true (by rw [hzero, hzero]) ?_
    rintro ⟨k, e, -, heq⟩
    have hpos : (0 : ℚ) < (k + 1) * 10 ^ e := mul_pos (by positivity) (tenPow_pos e)
    rw [← heq, hzero, Scientific.value, Nat.cast_zero, zero_mul] at hpos
    exact lt_irrefl 0 hpos
  · refine iff_of_true (by rw [hwhole, hwhole]) ?_
    rintro ⟨k, e, hmid, heq⟩
    refine ratio_ne_of_midway hx hmid ?_
    rw [← heq, hwhole, Scientific.value]
    simp
  · obtain ⟨s, hs, hup⟩ := hfound .up
    obtain ⟨t, ht, heven⟩ := hfound .even
    obtain ⟨hexp, hnear⟩ := abs_sub_le_of_neighbour? hs
    rw [hup, heven]
    constructor
    · rintro hvalue ⟨k, e', hmid, hq⟩
      obtain rfl : e = e' := by
        rw [← hexp]
        exact hmid.exponent_eq hq (by rwa [hexp])
      obtain rfl := Option.some.inj (ht.symm.trans hmid.neighbour?_even)
      rw [hq, Scientific.value, mul_left_inj' (tenPow_pos e).ne'] at hvalue
      linarith
    · intro hnot
      rcases neighbour?_even_eq_or x e with hsame | ⟨k, hmid, hk⟩
      · rw [hs, ht] at hsame
        rw [Option.some.inj hsame]
      · refine absurd ⟨k, e, hmid, ?_⟩ hnot
        obtain rfl := Option.some.inj (hs.symm.trans hk)
        simp [Scientific.value]

end Binary64
end ContentFilter
