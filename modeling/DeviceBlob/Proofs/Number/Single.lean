import DeviceBlob.Proofs.Number.Exact

/-!
# Numbers of single precision among those of double precision

Every finite number of single precision has a code of double precision (`exists_widened`), so it is
not rounded on the way there, and it is not rounded on the way back either
(`toSingleBits_ofSingleBits`).  A pattern that is not a number stays one.  The numbers that single
precision can hold are `Double.IsSingle`; storing one of these as a single and reading it again
gives the same number (`toSingle_of_isSingle`).  The bits that any number is stored as are stored
again when they were read (`toSingleBits_toSingle`).
-/

namespace DeviceBlob

namespace Double

open BinaryFormat

/-! ### Sign and code -/

variable {negative : Bool} {n : Nat}

/-- The bits of a number are its code and its sign. -/
theorem toNat_ofCode (h : n < 2 ^ 63) :
    (ofCode negative n).bits.toNat = n + if negative then 2 ^ 63 else 0 := by
  have fits : n + (if negative then binary64.signWeight else 0) < 2 ^ 64 := by
    have weight : binary64.signWeight = 2 ^ 63 := rfl
    rw [weight]
    split <;> omega
  exact UInt64.toNat_ofNat_of_lt' fits

/-- A code without its sign is read back. -/
theorem code_ofCode (h : n < 2 ^ 63) : (ofCode negative n).code = n := by
  show (ofCode negative n).bits.toNat % 2 ^ 63 = n
  rw [toNat_ofCode h]
  cases negative
  · rw [if_neg (by decide), Nat.add_zero, Nat.mod_eq_of_lt h]
  · rw [if_pos rfl, Nat.add_mod_right, Nat.mod_eq_of_lt h]

/-- The sign is read back. -/
theorem isNegative_ofCode (h : n < 2 ^ 63) : (ofCode negative n).isNegative = negative := by
  show decide (2 ^ 63 ≤ (ofCode negative n).bits.toNat) = negative
  rw [toNat_ofCode h]
  cases negative
  · rw [if_neg (by decide), Nat.add_zero]
    exact decide_eq_false (Nat.not_le.2 h)
  · rw [if_pos rfl]
    exact decide_eq_true (Nat.le_add_left _ _)

/-! ### Finite numbers -/

/-- Single precision keeps 23 bits of a fraction. -/
theorem fractionBits_binary32 : binary32.fractionBits = 23 := rfl

/-- Double precision keeps 52. -/
theorem fractionBits_binary64 : binary64.fractionBits = 52 := rfl

/-- The least positive single number is two to this power. -/
theorem leastExponent_binary32 : binary32.leastExponent = -149 := by decide

/-- The least positive double number is two to this power. -/
theorem leastExponent_binary64 : binary64.leastExponent = -1074 := by decide

/-- The same number as a count of steps of double precision: `k` steps of single precision are
shifted until they have all digits. -/
theorem exists_widened {steps k : Nat} (step : binary32.IsStep steps k) (low : steps < 254) :
    ∃ steps' k', binary64.IsStep steps' k' ∧ steps' ≤ 1149 ∧
      (k' : ℚ) * 2 ^ (binary64.leastExponent + steps') =
        k * 2 ^ (binary32.leastExponent + steps) := by
  obtain ⟨nonzero, few, -⟩ := step
  rw [fractionBits_binary32] at few
  have digits : k.log2 < 24 := (Nat.log2_lt nonzero).2 (by omega)
  have above : 2 ^ k.log2 ≤ k := Nat.log2_self_le nonzero
  have below : k < 2 ^ (k.log2 + 1) := Nat.lt_log2_self
  have enough : 2 ^ 52 ≤ k * 2 ^ (52 - k.log2) := by
    calc 2 ^ 52 = 2 ^ k.log2 * 2 ^ (52 - k.log2) := by
          rw [← Nat.pow_add]
          congr 1
          omega
      _ ≤ k * 2 ^ (52 - k.log2) := Nat.mul_le_mul_right _ above
  have fewer : k * 2 ^ (52 - k.log2) < 2 * 2 ^ 52 := by
    calc k * 2 ^ (52 - k.log2) < 2 ^ (k.log2 + 1) * 2 ^ (52 - k.log2) :=
          Nat.mul_lt_mul_of_pos_right below (Nat.pow_pos (by decide))
      _ = 2 * 2 ^ 52 := by
          rw [← Nat.pow_add, ← Nat.pow_succ']
          congr 1
          omega
  have step' : binary64.IsStep (steps + k.log2 + 873) (k * 2 ^ (52 - k.log2)) := by
    unfold IsStep
    rw [fractionBits_binary64]
    exact ⟨by omega, fewer, Or.inr enough⟩
  have moved : ((52 - k.log2 : Nat) : Int) + (-1074 + (steps + k.log2 + 873 : Nat)) =
      -149 + steps := by
    omega
  refine ⟨steps + k.log2 + 873, k * 2 ^ (52 - k.log2), step', by omega, ?_⟩
  rw [leastExponent_binary32, leastExponent_binary64, Nat.cast_mul, Nat.cast_pow, Nat.cast_ofNat,
    mul_assoc, ← zpow_natCast, ← zpow_add₀ (by norm_num : (2 : ℚ) ≠ 0), moved]

/-- The code of double precision for a finite code of single precision. -/
def widenedCode (c : Nat) : Nat :=
  binary64.nearest
    (fraction (binary32.significand c).1 (binary32.significand c).2).1
    (fraction (binary32.significand c).1 (binary32.significand c).2).2

/-- The code of single precision for a finite code of double precision. -/
def narrowedCode (c : Nat) : Nat :=
  binary32.nearest
    (fraction (binary64.significand c).1 (binary64.significand c).2).1
    (fraction (binary64.significand c).1 (binary64.significand c).2).2

/-- A finite code of single precision is not rounded on its way to double precision and back. -/
theorem widenedCode_bounds {c : Nat} (finite : c < binary32.infinity) :
    widenedCode c < binary64.infinity ∧ narrowedCode (widenedCode c) = c := by
  by_cases zero : c = 0
  · subst zero
    decide
  · obtain ⟨steps, k, step, rfl⟩ := @exists_steps binary32 c zero
    have low : steps < 254 := by
      have few := step.2.1
      have many := step.2.2
      have bound : binary32.infinity = 255 * 2 ^ 23 := rfl
      rw [bound] at finite
      rw [fractionBits_binary32] at few many finite
      omega
    obtain ⟨steps', k', step', low', same⟩ := exists_widened step low
    have value := fraction_eq k (binary32.leastExponent + steps)
    have value' := fraction_eq k' (binary64.leastExponent + steps')
    have small : steps' * 2 ^ binary64.fractionBits + k' < binary64.infinity := by
      have few := step'.2.1
      have bound : binary64.infinity = 2047 * 2 ^ 52 := rfl
      rw [bound]
      rw [fractionBits_binary64] at few ⊢
      omega
    have widened : widenedCode (steps * 2 ^ binary32.fractionBits + k) =
        steps' * 2 ^ binary64.fractionBits + k' := by
      rw [widenedCode, significand_steps step,
        nearest_exact (fraction_pos _ _) step' (value.trans same.symm)]
      exact Nat.min_eq_right (Nat.le_of_lt small)
    have narrowed : narrowedCode (steps' * 2 ^ binary64.fractionBits + k') =
        steps * 2 ^ binary32.fractionBits + k := by
      rw [narrowedCode, significand_steps step',
        nearest_exact (fraction_pos _ _) step (value'.trans same)]
      exact Nat.min_eq_right (Nat.le_of_lt finite)
    rw [widened]
    exact ⟨small, narrowed⟩

/-- A finite code of double precision is stored with its sign. -/
theorem toSingleBits_ofCode {c : Nat} (finite : c < binary64.infinity) :
    (ofCode negative c).toSingleBits =
      UInt32.ofNat (narrowedCode c + if negative then binary32.signWeight else 0) := by
  have infinity : binary64.infinity = 2047 * 2 ^ 52 := rfl
  have fits : c < 2 ^ 63 := by omega
  have isNumber : ¬(ofCode negative c).isNaN = true := by
    simp only [isNaN, code_ofCode fits, decide_eq_true_eq]
    omega
  have isFinite : ¬(ofCode negative c).isInfinite = true := by
    simp only [isInfinite, code_ofCode fits, beq_iff_eq]
    omega
  have stored : (ofCode negative c).toSingleBits =
      UInt32.ofNat (narrowedCode (ofCode negative c).code +
        if (ofCode negative c).isNegative then binary32.signWeight else 0) :=
    congrArg (fun code => UInt32.ofNat (code + _)) ((if_neg isNumber).trans (if_neg isFinite))
  rw [stored, code_ofCode fits, isNegative_ofCode fits]

/-- An infinity is stored with its sign. -/
theorem toSingleBits_ofCode_infinity :
    (ofCode negative binary64.infinity).toSingleBits =
      UInt32.ofNat (binary32.infinity + if negative then binary32.signWeight else 0) := by
  cases negative <;> decide

/-! ### Patterns that are not numbers -/

/-- A pattern of an infinity with more bits set is greater than the infinity, and has no sign. -/
theorem or_or_bounds {infinity quiet rest limit : Nat} (hi : infinity < 2 ^ limit)
    (hq : quiet < 2 ^ limit) (hr : rest < 2 ^ limit) (apart : infinity < infinity ||| quiet) :
    infinity < infinity ||| quiet ||| rest ∧ infinity ||| quiet ||| rest < 2 ^ limit :=
  ⟨Nat.lt_of_lt_of_le apart Nat.left_le_or,
    Nat.or_lt_two_pow (Nat.or_lt_two_pow hi hq) hr⟩

/-- A pattern of single precision that is not a number does not become one. -/
theorem isNaN_ofSingleBits {bits : UInt32} (h : 2139095040 < bits.toNat % 2 ^ 31) :
    (ofSingleBits bits).isNaN = true := by
  have bounds := @or_or_bounds binary64.infinity (2 ^ 51) (bits.toNat % 2 ^ 31 % 2 ^ 23 * 2 ^ 29)
    63 (by decide) (by decide) (by omega) (by decide)
  have opened : ofSingleBits bits = ofCode (decide (2 ^ 31 ≤ bits.toNat))
      (binary64.infinity ||| 2 ^ 51 ||| bits.toNat % 2 ^ 31 % 2 ^ 23 * 2 ^ 29) := if_pos h
  rw [opened, isNaN, code_ofCode bounds.2]
  exact decide_eq_true bounds.1

/-- A pattern that is not a number does not become one by being stored in single precision. -/
theorem isNaN_toSingle {x : Double} (h : x.isNaN = true) : x.toSingle.isNaN = true := by
  have bounds := @or_or_bounds binary32.infinity (2 ^ 22) (x.code % 2 ^ 52 / 2 ^ 29) 31 (by decide)
    (by decide) (by omega) (by decide)
  have stored : x.toSingleBits = UInt32.ofNat ((binary32.infinity ||| 2 ^ 22 |||
      x.code % 2 ^ 52 / 2 ^ 29) + if x.isNegative then binary32.signWeight else 0) := by
    unfold toSingleBits
    rw [if_pos h]
    rfl
  have weight : binary32.signWeight = 2 ^ 31 := rfl
  apply isNaN_ofSingleBits
  rw [stored, weight, UInt32.toNat_ofNat']
  have infinity : binary32.infinity = 2139095040 := rfl
  rw [infinity] at bounds ⊢
  split <;> omega

/-- Bits below a pattern are added to it, and a bit that the pattern has stays. -/
theorem or_eq_add {high k rest : Nat} (absorbs : 2 ^ k * high ||| 2 ^ k = 2 ^ k * high)
    (small : rest < 2 ^ (k + 1)) : 2 ^ k * high ||| rest = 2 ^ k * high + rest % 2 ^ k := by
  have low : rest % 2 ^ k < 2 ^ k := Nat.mod_lt _ (Nat.two_pow_pos k)
  have few : rest / 2 ^ k < 2 := by
    rw [Nat.div_lt_iff_lt_mul (Nat.two_pow_pos k), ← Nat.pow_succ']
    exact small
  have kept : 2 ^ k * high ||| 2 ^ k * (rest / 2 ^ k) = 2 ^ k * high := by
    generalize rest / 2 ^ k = bit at few
    have cases : bit = 0 ∨ bit = 1 := by omega
    rcases cases with rfl | rfl
    · rw [Nat.mul_zero, Nat.or_zero]
    · rw [Nat.mul_one, absorbs]
  calc 2 ^ k * high ||| rest
      = 2 ^ k * high ||| (2 ^ k * (rest / 2 ^ k) ||| rest % 2 ^ k) := by
        rw [← Nat.two_pow_add_eq_or_of_lt low, Nat.div_add_mod]
    _ = 2 ^ k * high + rest % 2 ^ k := by
        rw [← Nat.or_assoc, kept, ← Nat.two_pow_add_eq_or_of_lt low]

/-- The code of single precision for a pattern that is not a number, by the upper bits of its
fraction. -/
theorem quiet32_or {rest : Nat} (small : rest < 2 ^ 23) :
    binary32.infinity ||| 2 ^ 22 ||| rest = 2 ^ 22 * 511 + rest % 2 ^ 22 :=
  @or_eq_add 511 22 rest (by decide) small

/-- The code of double precision for a pattern that is not a number, by the rest of its fraction. -/
theorem quiet64_or {rest : Nat} (small : rest < 2 ^ 52) :
    binary64.infinity ||| 2 ^ 51 ||| rest = 2 ^ 51 * 4095 + rest % 2 ^ 51 :=
  @or_eq_add 4095 51 rest (by decide) small

/-- A pattern that is not a number is stored as one that is quiet. -/
theorem toSingleBits_of_isNaN {x : Double} (h : x.isNaN = true) :
    x.toSingleBits = UInt32.ofNat (2 ^ 22 * 511 + x.code % 2 ^ 52 / 2 ^ 29 % 2 ^ 22 +
      if x.isNegative then 2 ^ 31 else 0) := by
  rw [← quiet32_or (by omega)]
  unfold toSingleBits
  rw [if_pos h]
  rfl

/-- What was read from single precision is stored as the same bits if these are quiet. -/
theorem toSingleBits_ofSingleBits_quiet {bits : UInt32} (h : 2 ^ 22 * 511 ≤ bits.toNat % 2 ^ 31) :
    (ofSingleBits bits).toSingleBits = bits := by
  have small := bits.toNat_lt
  obtain ⟨low, below, code⟩ : ∃ low < 2 ^ 22, bits.toNat % 2 ^ 31 = 2 ^ 22 * 511 + low :=
    ⟨bits.toNat % 2 ^ 31 - 2 ^ 22 * 511, by omega, by omega⟩
  have whole : (2 ^ 22 * 511 + low + if 2 ^ 31 ≤ bits.toNat then 2 ^ 31 else 0) = bits.toNat := by
    split <;> omega
  have above : binary32.infinity < bits.toNat % 2 ^ 31 := by
    have infinity : binary32.infinity = 2139095040 := rfl
    omega
  have read : ofSingleBits bits = ofCode (decide (2 ^ 31 ≤ bits.toNat))
      (binary64.infinity ||| 2 ^ 51 ||| bits.toNat % 2 ^ 31 % 2 ^ 23 * 2 ^ 29) := if_pos above
  have shifted : bits.toNat % 2 ^ 31 % 2 ^ 23 * 2 ^ 29 % 2 ^ 51 = low * 2 ^ 29 := by omega
  rw [quiet64_or (by omega), shifted] at read
  have isNaN : (ofSingleBits bits).isNaN = true := by
    have infinity : binary64.infinity = 9218868437227405312 := rfl
    rw [read, Double.isNaN, code_ofCode (by omega), decide_eq_true_eq]
    omega
  rw [toSingleBits_of_isNaN isNaN, read, code_ofCode (by omega), isNegative_ofCode (by omega)]
  have back : (2 ^ 51 * 4095 + low * 2 ^ 29) % 2 ^ 52 / 2 ^ 29 % 2 ^ 22 = low := by omega
  apply UInt32.toNat_inj.1
  simp only [back, decide_eq_true_eq, whole]
  exact UInt32.toNat_ofNat'.trans (Nat.mod_eq_of_lt small)

/-! ### Storing and reading -/

/-- A number of single precision, widened and stored in single precision, has the same bits. -/
theorem toSingleBits_ofSingleBits {bits : UInt32} (h : bits.toNat % 2 ^ 31 ≤ 2139095040) :
    (ofSingleBits bits).toSingleBits = bits := by
  have whole : UInt32.ofNat (bits.toNat % 2 ^ 31 +
      if decide (2 ^ 31 ≤ bits.toNat) then binary32.signWeight else 0) = bits := by
    apply UInt32.toNat_inj.1
    have small := bits.toNat_lt
    have weight : binary32.signWeight = 2 ^ 31 := rfl
    rw [weight, UInt32.toNat_ofNat']
    simp only [decide_eq_true_eq]
    split <;> omega
  by_cases infinite : bits.toNat % 2 ^ 31 = 2139095040
  · have opened : ofSingleBits bits =
        ofCode (decide (2 ^ 31 ≤ bits.toNat)) binary64.infinity :=
      (if_neg (Nat.not_lt.2 h)).trans (if_pos infinite)
    rw [infinite] at whole
    rw [opened, toSingleBits_ofCode_infinity]
    exact whole
  · have opened : ofSingleBits bits =
        ofCode (decide (2 ^ 31 ≤ bits.toNat)) (widenedCode (bits.toNat % 2 ^ 31)) :=
      (if_neg (Nat.not_lt.2 h)).trans (if_neg infinite)
    obtain ⟨finite, back⟩ := widenedCode_bounds (Nat.lt_of_le_of_ne h infinite)
    rw [opened, toSingleBits_ofCode finite, back, whole]

/-- Rounding goes no further than infinity. -/
theorem nearest_le (format : BinaryFormat) (num den : Nat) :
    format.nearest num den ≤ format.infinity := by
  unfold nearest
  split
  · exact Nat.zero_le _
  · exact Nat.min_le_left _ _

/-- What is stored in single precision is stored as the same bits again after it was read. -/
theorem toSingleBits_toSingle (x : Double) : x.toSingle.toSingleBits = x.toSingleBits := by
  have infinity : binary32.infinity = 2139095040 := rfl
  by_cases notNumber : x.isNaN = true
  · refine toSingleBits_ofSingleBits_quiet ?_
    rw [toSingleBits_of_isNaN notNumber, UInt32.toNat_ofNat']
    split <;> omega
  · refine toSingleBits_ofSingleBits ?_
    obtain ⟨code, most, stored⟩ : ∃ code ≤ binary32.infinity, x.toSingleBits =
        UInt32.ofNat (code + if x.isNegative then binary32.signWeight else 0) := by
      unfold toSingleBits
      rw [if_neg notNumber]
      split
      · exact ⟨_, Nat.le_refl _, rfl⟩
      · exact ⟨_, nearest_le _ _ _, rfl⟩
    have weight : binary32.signWeight = 2 ^ 31 := rfl
    rw [stored, weight, UInt32.toNat_ofNat']
    split <;> omega

/-- Single precision can hold the number; of patterns that are not numbers it can hold one. -/
def IsSingle (x : Double) : Prop := x.isNaN = true ∨ ∃ bits, x = ofSingleBits bits

/-- What single precision can hold is the same after being stored in it, up to the pattern of what
is not a number. -/
theorem toSingle_of_isSingle {x : Double} (h : x.IsSingle) :
    x.toSingle = x ∨ (x.isNaN = true ∧ x.toSingle.isNaN = true) := by
  rcases h with notNumber | ⟨bits, rfl⟩
  · exact Or.inr ⟨notNumber, isNaN_toSingle notNumber⟩
  · rcases Nat.lt_or_ge 2139095040 (bits.toNat % 2 ^ 31) with above | below
    · have notNumber := isNaN_ofSingleBits above
      exact Or.inr ⟨notNumber, isNaN_toSingle notNumber⟩
    · refine Or.inl ?_
      rw [toSingle, toSingleBits_ofSingleBits below]

end Double

end DeviceBlob
