import DeviceBlob.Text.Blank
import DeviceBlob.Text.Decimal

/-!
# Numbers and their digits

What is read as a natural number is a numeral, and one without a leading zero is the text of its
number (`eq_toDigits_of_natural?`).  The text of an integer is a numeral behind an optional minus,
and it is read back (`integer?_toString`, `int64?_toString`), so different integers have different
texts.
-/

namespace DeviceBlob.Text

/-! ### Numerals -/

/-- A text of one or more digits. -/
def IsNumeral (cs : List Char) : Prop := cs ≠ [] ∧ cs.all Char.isDigit = true

/-- What can be read as a natural number consists of digits. -/
theorem isNumeral_of_natural? {cs : List Char} {n : Nat} (h : natural? cs = some n) :
    IsNumeral cs := by
  unfold natural? at h
  by_cases digits : cs ≠ [] ∧ cs.all Char.isDigit = true
  · exact digits
  · rw [if_neg digits] at h
    cases h

/-- A digit stands for a number below ten. -/
theorem exists_digitChar {c : Char} (digit : c.isDigit = true) : ∃ d < 10, c = d.digitChar := by
  have range : 48 ≤ c.toNat ∧ c.toNat ≤ 57 := Char.isDigit_iff_toNat.1 digit
  refine ⟨c.toNat - 48, by omega, ?_⟩
  rw [← Char.toNat_inj, Nat.toNat_digitChar_of_lt_ten (by omega)]
  omega

/-- The digits behind a number other than zero continue its own. -/
theorem toDigits_ofDigitChars {digits : List Char} (all : digits.all Char.isDigit = true)
    {start : Nat} (positive : 0 < start) :
    Nat.toDigits 10 (Nat.ofDigitChars 10 digits start) = Nat.toDigits 10 start ++ digits := by
  induction digits generalizing start with
  | nil => simp
  | cons c rest ih =>
    rw [List.all_cons, Bool.and_eq_true] at all
    obtain ⟨d, small, rfl⟩ := exists_digitChar all.1
    calc Nat.toDigits 10 (Nat.ofDigitChars 10 (d.digitChar :: rest) start)
        = Nat.toDigits 10 (10 * start + d) ++ rest := by
          rw [Nat.ofDigitChars_cons_digitChar_of_lt_ten small, ih all.2 (by omega)]
      _ = Nat.toDigits 10 start ++ d.digitChar :: rest := by
          rw [← Nat.toDigits_append_toDigits (by decide) positive small,
            Nat.toDigits_of_lt_base small, List.append_assoc]
          rfl

/-- A number that is read from digits without a leading zero has these digits. -/
theorem eq_toDigits_of_natural? {digits : List Char} {n : Nat} (read : natural? digits = some n)
    (plain : digits.head? = some '0' → digits = ['0']) : digits = Nat.toDigits 10 n := by
  obtain ⟨nonempty, all⟩ := isNumeral_of_natural? read
  rw [natural?, if_pos ⟨nonempty, all⟩] at read
  cases read
  cases digits with
  | nil => exact absurd rfl nonempty
  | cons c rest =>
    by_cases zero : c = '0'
    · rw [plain (congrArg some zero)]
      rfl
    · rw [List.all_cons, Bool.and_eq_true] at all
      obtain ⟨d, small, rfl⟩ := exists_digitChar all.1
      have positive : 0 < d := by
        refine Nat.pos_of_ne_zero ?_
        rintro rfl
        exact zero rfl
      rw [Nat.ofDigitChars_cons_digitChar_of_lt_ten small, toDigits_ofDigitChars all.2 (by omega),
        Nat.mul_zero, Nat.zero_add, Nat.toDigits_of_lt_base small]
      rfl

/-- A numeral is no empty text. -/
theorem IsNumeral.ofList_ne_empty {cs : List Char} (h : IsNumeral cs) : String.ofList cs ≠ "" := by
  simpa using h.1

/-- A number is written as a numeral. -/
theorem isNumeral_toDigits (n : Nat) : IsNumeral (Nat.toDigits 10 n) :=
  isNumeral_of_natural? (natural?_toDigits n)

/-! ### Integers -/

/-- A numeral has no sign, so it is read as a natural number. -/
theorem integer?_of_isNumeral {cs : List Char} (h : IsNumeral cs) :
    integer? cs = (natural? cs).map Int.ofNat := by
  obtain ⟨nonempty, all⟩ := h
  cases cs with
  | nil => exact absurd rfl nonempty
  | cons c rest =>
    rw [List.all_cons, Bool.and_eq_true] at all
    have minus : c ≠ '-' := by
      rintro rfl
      exact absurd all.1 (by decide)
    have plus : c ≠ '+' := by
      rintro rfl
      exact absurd all.1 (by decide)
    unfold integer?
    split
    · simp_all
    · simp_all
    · rfl

/-- The text of an integer: its digits, behind a minus if it is negative. -/
theorem toList_toString_int (n : Int) :
    (toString n).toList = if 0 ≤ n then Nat.toDigits 10 n.natAbs
      else '-' :: Nat.toDigits 10 n.natAbs := by
  cases n with
  | ofNat m => simp [Int.toString_eq_repr, Int.repr, Nat.toList_repr]
  | negSucc m => simp [Int.toString_eq_repr, Int.repr, Nat.toList_repr]

/-- The text of an integer consists of digits and a minus. -/
theorem eq_minus_or_isDigit {n : Int} {c : Char} (mem : c ∈ (toString n).toList) :
    c = '-' ∨ c.isDigit = true := by
  have digit := List.all_eq_true.1 (isNumeral_toDigits n.natAbs).2
  rw [toList_toString_int] at mem
  split at mem
  · exact Or.inr (digit c mem)
  · rcases List.mem_cons.1 mem with rfl | mem
    · exact Or.inl rfl
    · exact Or.inr (digit c mem)

/-- A letter that is neither a digit nor a minus is not in the text of an integer. -/
theorem not_mem_toString {mark : Char} (sign : mark ≠ '-') (other : mark.isDigit = false)
    (n : Int) : mark ∉ (toString n).toList := by
  intro mem
  rcases eq_minus_or_isDigit mem with same | digit
  · exact sign same
  · simp [other] at digit

/-- An integer is read back from its text. -/
theorem integer?_toString (n : Int) : integer? (toString n).toList = some n := by
  rw [toList_toString_int]
  split
  · next positive =>
    rw [integer?_of_isNumeral (isNumeral_toDigits _), natural?_toDigits]
    exact congrArg some (Int.natAbs_of_nonneg positive)
  · next negative =>
    rw [integer?, natural?_toDigits]
    show some (-(n.natAbs : Int)) = some n
    congr 1
    omega

/-- Different numbers are written differently. -/
theorem toString_int_injective {n m : Int} (same : toString n = toString m) : n = m := by
  have read := integer?_toString n
  rw [same, integer?_toString] at read
  exact (Option.some.inj read).symm

/-- A 64-bit integer is read back from its text. -/
theorem int64?_toString (value : Int64) : int64? (toString value.toInt) = some value := by
  have low := value.le_toInt
  have high := value.toInt_lt
  have bound : Nat.pow 2 (64 - 1) = 2 ^ 63 := rfl
  have inside : signed? 64 (toString value.toInt).toList = some value.toInt := by
    rw [signed?, integer?_toString, Option.filter_some, if_pos]
    simp only [bound, Bool.and_eq_true, decide_eq_true_eq]
    omega
  rw [int64?, inside, Option.map_some, Int64.ofInt_toInt]

/-- Nothing in the text of an integer is blank. -/
theorem isBlank_toString_int {n : Int} {c : Char} (mem : c ∈ (toString n).toList) :
    isBlank c = false := by
  rcases eq_minus_or_isDigit mem with rfl | digit
  · decide
  · have range : 48 ≤ c.toNat ∧ c.toNat ≤ 57 := Char.isDigit_iff_toNat.1 digit
    simp only [isBlank, Bool.or_eq_false_iff, Bool.and_eq_false_iff, beq_eq_false_iff_ne,
      decide_eq_false_iff_not]
    omega

end DeviceBlob.Text
