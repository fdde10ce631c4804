import DeviceBlob.Number.Double
import Mathlib.Algebra.Order.Field.Power
import Mathlib.Data.Rat.Cast.Order
import Mathlib.Tactic.FieldSimp
import Mathlib.Tactic.Linarith
import Mathlib.Tactic.NormNum
import Mathlib.Tactic.Positivity

/-!
# Numbers that a binary format holds exactly

A quotient that is `k` steps of the last place of a format is not rounded: `nearest` finds the code
made of the same steps (`nearest_exact`), and `significand` opens that code again
(`significand_steps`).  The quotients are compared as rational numbers.
-/

namespace DeviceBlob.BinaryFormat

/-! ### Powers of two with an integer exponent -/

/-- A power of two is the quotient of its natural powers. -/
theorem two_zpow_eq_div (e : Int) :
    (2 : ℚ) ^ e = (2 : ℚ) ^ e.toNat / (2 : ℚ) ^ (-e).toNat := by
  rcases Int.le_total 0 e with up | down
  · obtain ⟨n, rfl⟩ := Int.eq_ofNat_of_zero_le up
    simp
  · obtain ⟨n, hn⟩ := Int.eq_ofNat_of_zero_le (Int.neg_nonneg_of_nonpos down)
    obtain rfl : e = -(n : Int) := by omega
    simp

/-- Powers of two are ordered by their exponents. -/
theorem two_zpow_lt_iff {a b : Int} : (2 : ℚ) ^ a < 2 ^ b ↔ a < b :=
  zpow_lt_zpow_iff_right₀ (by norm_num)

/-- A fraction is the number that it was made for. -/
theorem fraction_eq (m : Nat) (q : Int) :
    ((Double.fraction m q).1 : ℚ) / (Double.fraction m q).2 = m * 2 ^ q := by
  rw [two_zpow_eq_div]
  simp only [Double.fraction, Nat.pow_eq, Nat.cast_mul, Nat.cast_pow, Nat.cast_ofNat]
  exact mul_div_assoc _ _ _

/-- The denominator of a fraction is positive. -/
theorem fraction_pos (m : Nat) (q : Int) : 0 < (Double.fraction m q).2 :=
  Nat.pow_pos (by decide)

variable {num den : Nat}

/-- A scaled denominator is positive. -/
theorem scaled_pos (h : 0 < den) (e : Int) : 0 < (scaled num den e).2 :=
  Nat.mul_pos h (Nat.pow_pos (by decide))

/-- Scaling divides by a power of two. -/
theorem scaled_eq (e : Int) :
    ((scaled num den e).1 : ℚ) / (scaled num den e).2 = num / den / 2 ^ e := by
  rw [two_zpow_eq_div]
  simp only [scaled, Nat.pow_eq, Nat.cast_mul, Nat.cast_pow, Nat.cast_ofNat]
  rw [div_div_eq_mul_div, div_mul_eq_mul_div, div_div]

/-! ### The exponent of a quotient -/

/-- A natural number lies between two neighbouring powers of two. -/
theorem log2_bounds {n : Nat} (h : 0 < n) :
    (2 : ℚ) ^ (n.log2 : Int) ≤ n ∧ (n : ℚ) < 2 ^ ((n.log2 : Int) + 1) := by
  have low : 2 ^ n.log2 ≤ n := Nat.log2_self_le (Nat.ne_of_gt h)
  have high : n < 2 ^ (n.log2 + 1) := Nat.lt_log2_self
  constructor
  · rw [zpow_natCast]
    exact_mod_cast low
  · have sum : (n.log2 : Int) + 1 = ((n.log2 + 1 : Nat) : Int) := rfl
    rw [sum, zpow_natCast]
    exact_mod_cast high

/-- The exponent of a quotient is the difference of the exponents, or one less where the comparison
of the scaled quotient says so. -/
theorem binaryExponent_cases (hd : 0 < den) :
    (binaryExponent num den = (num.log2 : Int) - den.log2 - 1 ∧
        (num : ℚ) / den < 2 ^ ((num.log2 : Int) - den.log2)) ∨
      (binaryExponent num den = (num.log2 : Int) - den.log2 ∧
        (2 : ℚ) ^ ((num.log2 : Int) - den.log2) ≤ num / den) := by
  have compare : (scaled num den ((num.log2 : Int) - den.log2)).1 <
      (scaled num den ((num.log2 : Int) - den.log2)).2 ↔
        (num : ℚ) / den < 2 ^ ((num.log2 : Int) - den.log2) := by
    have scaledPos : (0 : ℚ) < (scaled num den ((num.log2 : Int) - den.log2)).2 := by
      exact_mod_cast scaled_pos hd _
    have powerPos : (0 : ℚ) < 2 ^ ((num.log2 : Int) - den.log2) := zpow_pos (by norm_num) _
    rw [← div_lt_one powerPos, ← scaled_eq, div_lt_one scaledPos, Nat.cast_lt]
  by_cases less : (scaled num den ((num.log2 : Int) - den.log2)).1 <
      (scaled num den ((num.log2 : Int) - den.log2)).2
  · exact Or.inl ⟨if_pos less, compare.1 less⟩
  · exact Or.inr ⟨if_neg less, le_of_not_gt (mt compare.2 less)⟩

/-- The exponent of a quotient is that of the power of two just below it. -/
theorem binaryExponent_bounds (hn : 0 < num) (hd : 0 < den) :
    (2 : ℚ) ^ binaryExponent num den ≤ num / den ∧
      (num : ℚ) / den < 2 ^ (binaryExponent num den + 1) := by
  have two : (2 : ℚ) ≠ 0 := by norm_num
  obtain ⟨numLow, numHigh⟩ := log2_bounds hn
  obtain ⟨denLow, denHigh⟩ := log2_bounds hd
  have denPos : (0 : ℚ) < den := by exact_mod_cast hd
  rcases @binaryExponent_cases num den hd with ⟨found, above⟩ | ⟨found, below⟩
  · rw [found, Int.sub_add_cancel]
    refine ⟨?_, above⟩
    rw [le_div_iff₀ denPos]
    calc (2 : ℚ) ^ ((num.log2 : Int) - den.log2 - 1) * den
        ≤ 2 ^ ((num.log2 : Int) - den.log2 - 1) * 2 ^ ((den.log2 : Int) + 1) :=
          mul_le_mul_of_nonneg_left (le_of_lt denHigh) (by positivity)
      _ = 2 ^ (num.log2 : Int) := by
        rw [← zpow_add₀ two]
        congr 1
        omega
      _ ≤ num := numLow
  · rw [found]
    refine ⟨below, ?_⟩
    rw [div_lt_iff₀ denPos]
    calc (num : ℚ) < 2 ^ ((num.log2 : Int) + 1) := numHigh
      _ = 2 ^ ((num.log2 : Int) - den.log2 + 1) * 2 ^ (den.log2 : Int) := by
        rw [← zpow_add₀ two]
        congr 1
        omega
      _ ≤ 2 ^ ((num.log2 : Int) - den.log2 + 1) * den :=
        mul_le_mul_of_nonneg_left denLow (by positivity)

/-! ### Numbers that are not rounded -/

/-- An integer is not rounded. -/
theorem roundHalfEven_mul (k : Nat) {den : Nat} (h : 0 < den) : roundHalfEven (k * den) den = k := by
  unfold roundHalfEven
  rw [Nat.mul_div_cancel k h, Nat.mul_mod_left]
  exact if_pos (Or.inl (by omega))

/-- `k` steps of the last place, `steps` places above the least one, as the formats have them: with
as many digits as there are, or with fewer in the least place. -/
def IsStep (format : BinaryFormat) (steps k : Nat) : Prop :=
  k ≠ 0 ∧ k < 2 * 2 ^ format.fractionBits ∧ (steps = 0 ∨ 2 ^ format.fractionBits ≤ k)

variable {format : BinaryFormat} {steps k : Nat}

/-- A number of a format is not rounded. -/
theorem nearest_exact (hd : 0 < den) (step : format.IsStep steps k)
    (exact : (num : ℚ) / den = k * 2 ^ (format.leastExponent + steps)) :
    format.nearest num den = min format.infinity (steps * 2 ^ format.fractionBits + k) := by
  have two : (2 : ℚ) ≠ 0 := by norm_num
  obtain ⟨nonzero, few, digits⟩ := step
  have kPos : (0 : ℚ) < k := by exact_mod_cast Nat.pos_of_ne_zero nonzero
  have hn : 0 < num := by
    apply Nat.pos_of_ne_zero
    rintro rfl
    have positive : (0 : ℚ) < k * 2 ^ (format.leastExponent + steps) := by positivity
    rw [← exact] at positive
    simp at positive
  obtain ⟨low, high⟩ := binaryExponent_bounds hn hd
  rw [exact] at low high
  -- The last place that `nearest` rounds to is the one that `k` counts.
  have place : max format.leastExponent (binaryExponent num den - format.fractionBits) =
      format.leastExponent + steps := by
    have above : (2 : ℚ) ^ binaryExponent num den <
        2 ^ ((format.fractionBits : Int) + 1 + (format.leastExponent + steps)) := by
      refine lt_of_le_of_lt low ?_
      have sum : (format.fractionBits : Int) + 1 = ((format.fractionBits + 1 : Nat) : Int) := rfl
      have fewer : (k : ℚ) < 2 ^ ((format.fractionBits : Int) + 1) := by
        rw [sum, zpow_natCast, pow_succ']
        exact_mod_cast few
      rw [zpow_add₀ two ((format.fractionBits : Int) + 1)]
      exact mul_lt_mul_of_pos_right fewer (zpow_pos (by norm_num) _)
    have notAbove := two_zpow_lt_iff.1 above
    rcases digits with rfl | many
    · simp only [Nat.cast_zero] at notAbove ⊢
      omega
    · have below : (2 : ℚ) ^ ((format.fractionBits : Int) + (format.leastExponent + steps)) <
          2 ^ (binaryExponent num den + 1) := by
        refine lt_of_le_of_lt ?_ high
        rw [zpow_add₀ two (format.fractionBits : Int), zpow_natCast]
        refine mul_le_mul_of_nonneg_right ?_ (le_of_lt (zpow_pos (by norm_num) _))
        exact_mod_cast many
      have notBelow := two_zpow_lt_iff.1 below
      omega
  have whole : (scaled num den (format.leastExponent + steps)).1 =
      k * (scaled num den (format.leastExponent + steps)).2 := by
    have denPos : (0 : ℚ) < (scaled num den (format.leastExponent + steps)).2 := by
      exact_mod_cast scaled_pos hd _
    have quotient := @scaled_eq num den (format.leastExponent + steps)
    rw [exact, mul_div_assoc, div_self (by positivity), mul_one, div_eq_iff denPos.ne'] at quotient
    exact_mod_cast quotient
  unfold nearest
  rw [if_neg hn.ne', place]
  show min format.infinity ((format.leastExponent + steps - format.leastExponent).toNat *
    2 ^ format.fractionBits + roundHalfEven (scaled num den (format.leastExponent + steps)).1
      (scaled num den (format.leastExponent + steps)).2) = _
  rw [whole, roundHalfEven_mul k (scaled_pos hd _)]
  congr 2
  rw [add_sub_cancel_left, Int.toNat_natCast]

/-! ### Opening a code -/

/-- A code that is not that of zero counts steps of one place. -/
theorem exists_steps {code : Nat} (h : code ≠ 0) :
    ∃ steps k, format.IsStep steps k ∧ code = steps * 2 ^ format.fractionBits + k := by
  have positive : 0 < 2 ^ format.fractionBits := Nat.pow_pos (by decide)
  have divided := Nat.div_add_mod' code (2 ^ format.fractionBits)
  have small := Nat.mod_lt code positive
  by_cases least : code / 2 ^ format.fractionBits = 0
  · rw [least, Nat.zero_mul, Nat.zero_add] at divided
    exact ⟨0, code, ⟨h, by omega, Or.inl rfl⟩, by omega⟩
  · refine ⟨code / 2 ^ format.fractionBits - 1,
      2 ^ format.fractionBits + code % 2 ^ format.fractionBits, ⟨by omega, by omega, ?_⟩, ?_⟩
    · exact Or.inr (by omega)
    · obtain ⟨e, he⟩ := Nat.exists_eq_succ_of_ne_zero least
      rw [he, Nat.succ_mul] at divided
      rw [he, Nat.succ_sub_one]
      omega

/-- The steps that a code counts are found again. -/
theorem significand_steps (step : format.IsStep steps k) :
    format.significand (steps * 2 ^ format.fractionBits + k) =
      (k, format.leastExponent + steps) := by
  obtain ⟨-, few, digits⟩ := step
  have positive : 0 < 2 ^ format.fractionBits := Nat.pow_pos (by decide)
  simp only [significand, Nat.pow_eq]
  rcases Nat.lt_or_ge k (2 ^ format.fractionBits) with fewer | many
  · obtain rfl : steps = 0 := by omega
    rw [Nat.zero_mul, Nat.zero_add, Nat.div_eq_of_lt fewer, Nat.mod_eq_of_lt fewer, if_pos rfl]
    simp
  · obtain ⟨fraction, rfl⟩ := Nat.exists_eq_add_of_le many
    have small : fraction < 2 ^ format.fractionBits := by omega
    have moved : steps * 2 ^ format.fractionBits + (2 ^ format.fractionBits + fraction) =
        fraction + (steps + 1) * 2 ^ format.fractionBits := by
      rw [Nat.succ_mul]
      omega
    rw [moved, Nat.add_mul_div_right _ _ positive, Nat.add_mul_mod_self_right,
      Nat.div_eq_of_lt small, Nat.mod_eq_of_lt small, if_neg (by omega)]
    simp

end DeviceBlob.BinaryFormat
