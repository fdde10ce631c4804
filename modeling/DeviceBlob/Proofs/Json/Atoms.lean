import DeviceBlob.Json.Printer
import DeviceBlob.Json.Reader
import DeviceBlob.Proofs.Text.Decimal
import DeviceBlob.Proofs.Text.Entries
import Mathlib.Data.List.Forall2

/-!
# Strings and integers in the text of JSON

What the printer writes for a string or an integer is what the reader takes it for.  Between quotes
this holds character by character (`stringBody_escape`), so every string is read back whatever
characters are in it (`stringText_escapes`).  An integer ends where no number goes on
(`EndsNumber`); up to there its digits are read (`literal_toString`), and where it has 64 bits, with
or without a sign, they stand for it again (`value?_wholeLiteral`).
-/

namespace DeviceBlob.Json

open Text

/-! ### Blanks -/

/-- A character that the reader passes over between the parts of a text. -/
def IsBlank (c : Char) : Prop := c = ' ' ∨ c = '\n' ∨ c = '\t' ∨ c = '\r'

instance : DecidablePred IsBlank := fun c =>
  inferInstanceAs (Decidable (c = ' ' ∨ c = '\n' ∨ c = '\t' ∨ c = '\r'))

/-- Nothing is skipped where no blank stands in front. -/
theorem skipBlanks_cons_of_not_isBlank {c : Char} (visible : ¬IsBlank c) (cs : List Char) :
    skipBlanks (c :: cs) = c :: cs := by
  have kept : (c == ' ' || c == '\n' || c == '\t' || c == '\r') = false := by
    simpa [IsBlank, and_assoc] using visible
  rw [skipBlanks, List.dropWhile_cons, kept]
  rfl

/-- A new line and its indentation are skipped. -/
theorem skipBlanks_newLine (depth : Nat) (cs : List Char) :
    skipBlanks ((newLine depth).toList ++ cs) = skipBlanks cs := by
  have blank : ∀ c ∈ (newLine depth).toList,
      (c == ' ' || c == '\n' || c == '\t' || c == '\r') = true := by
    intro c mem
    simp only [newLine, String.toList_append, String.toList_ofList, List.mem_append,
      List.mem_replicate] at mem
    rcases mem with mem | ⟨-, rfl⟩
    · obtain rfl : c = '\n' := by simpa using mem
      rfl
    · rfl
  rw [skipBlanks, List.dropWhile_append_of_pos blank, skipBlanks]

/-! ### Strings -/

/-- A hexadecimal digit is read back. -/
theorem hexValue?_hexDigit (n : Nat) : hexValue? (hexDigit n) = some (n % 16) := by
  have digit : ∀ d < 16, hexValue? (Nat.digitChar d) = some d := by decide
  exact digit (n % 16) (Nat.mod_lt _ (by decide))

/-- What an escape of a control character stands for. -/
theorem escapedChar_hexDigits {c : Char} (control : c.toNat < 0x20) (rest : List Char) :
    escapedChar false ('u' :: '0' :: '0' :: hexDigit (c.toNat / 16) :: hexDigit c.toNat :: rest) =
      some (c, rest) := by
  have zero : hexValue? '0' = some 0 := rfl
  have unit : hexUnit ('0' :: '0' :: hexDigit (c.toNat / 16) :: hexDigit c.toNat :: rest) =
      some (c.toNat, rest) := by
    have number : c.toNat / 16 % 16 * 16 + c.toNat % 16 = c.toNat := by omega
    simp [hexUnit, zero, hexValue?_hexDigit, number]
  have noHigh : isHighHalf c.toNat = false := by
    simp [isHighHalf]
    omega
  have noLow : isLowHalf c.toNat = false := by
    simp [isLowHalf]
    omega
  simp [escapedChar, unit, noHigh, noLow, Char.ofNat_toNat]

/-- A character is read back from how it stands between quotes. -/
theorem stringBody_escape (c : Char) (count : Nat) (cs : List Char) :
    stringBody false (count + 1) (escape c ++ cs) = do
      let (body, rest) ← stringBody false count cs
      return (c :: body, rest) := by
  unfold escape
  split
  case h_8 quote backslash _ _ _ _ _ =>
    split
    · next control =>
      simp only [List.cons_append, List.nil_append]
      rw [stringBody, escapedChar_hexDigits control]
      rfl
    · next printable =>
      rw [List.singleton_append, stringBody, if_neg printable]
      · assumption
      · assumption
  all_goals rfl

/-- The characters of a string are read back from between the quotes. -/
theorem stringBody_escapes : ∀ {cs : List Char} {count : Nat}, cs.length < count →
    ∀ rest : List Char,
      stringBody false count (cs.flatMap escape ++ '"' :: rest) = some (cs, rest)
  | [], count + 1, _, rest => rfl
  | c :: cs, count + 1, enough, rest => by
    have behind := stringBody_escapes (Nat.lt_of_succ_lt_succ enough) rest
    rw [List.flatMap_cons, List.append_assoc, stringBody_escape, behind]
    rfl

/-- Each character of a string is written in some way. -/
theorem escape_ne_nil (c : Char) : escape c ≠ [] := by
  unfold escape
  split <;> try split
  all_goals exact List.cons_ne_nil _ _

/-- A string between quotes, with what stands behind it. -/
theorem toList_quote_append (s : String) (rest : List Char) :
    (quote s).toList ++ rest = '"' :: (s.toList.flatMap escape ++ '"' :: rest) := by
  simp [quote]

/-- A string is read back from behind its opening quote. -/
theorem stringText_escapes (s : String) (rest : List Char) :
    stringText false (s.toList.flatMap escape ++ '"' :: rest) = some (s, rest) := by
  have enough : s.toList.length < (s.toList.flatMap escape ++ '"' :: rest).length + 1 := by
    have := length_le_length_flatMap escape_ne_nil s.toList
    rw [List.length_append]
    omega
  rw [stringText, stringBody_escapes enough]
  simp

/-! ### Integers -/

/-- No number goes on with these characters. -/
def EndsNumber (rest : List Char) : Prop :=
  ∀ c ∈ rest.head?, c.isDigit = false ∧ c ≠ '.' ∧ c ≠ 'e' ∧ c ≠ 'E'

/-- Digits are read up to what ends a number. -/
theorem digits_append {ds rest : List Char} (numeral : IsNumeral ds) (ends : EndsNumber rest) :
    digits (ds ++ rest) = some (ds, rest) := by
  have all : ∀ c ∈ ds, c.isDigit = true := List.all_eq_true.1 numeral.2
  have stop : rest.takeWhile Char.isDigit = [] ∧ rest.dropWhile Char.isDigit = rest := by
    cases rest with
    | nil => exact ⟨rfl, rfl⟩
    | cons c rest => simp [(ends c rfl).1]
  have taken : (ds ++ rest).takeWhile Char.isDigit = ds := by
    rw [List.takeWhile_append_of_pos all, stop.1, List.append_nil]
  have left : (ds ++ rest).dropWhile Char.isDigit = rest := by
    rw [List.dropWhile_append_of_pos all, stop.2]
  unfold digits
  rw [taken, left]
  split
  · exact absurd rfl numeral.1
  · rfl

/-- The digits of a number other than zero do not start with a zero. -/
theorem head?_toDigits {n : Nat} (positive : 0 < n) :
    (Nat.toDigits 10 n).head? ≠ some '0' := by
  induction n using Nat.strongRecOn with
  | ind n ih =>
    by_cases small : n < 10
    · have digit : ∀ d < 10, 0 < d → d.digitChar ≠ '0' := by decide
      rw [Nat.toDigits_of_lt_base small]
      simpa using digit n small positive
    · have split := Nat.toDigits_append_toDigits (show 1 < 10 by decide)
        (show 0 < n / 10 by omega) (Nat.mod_lt n (show 0 < 10 by decide))
      rw [Nat.div_add_mod] at split
      rw [← split, List.head?_append_of_ne_nil _ (isNumeral_toDigits _).1]
      exact ih (n / 10) (by omega) (by omega)

/-- A natural number is read digit by digit. -/
theorem wholeDigits_toDigits (n : Nat) {rest : List Char} (ends : EndsNumber rest) :
    wholeDigits (Nat.toDigits 10 n ++ rest) = some (Nat.toDigits 10 n, rest) := by
  have plain : ¬((Nat.toDigits 10 n).head? = some '0' ∧ (Nat.toDigits 10 n).length ≠ 1) := by
    rintro ⟨zero, long⟩
    rcases Nat.eq_zero_or_pos n with rfl | positive
    · exact long rfl
    · exact head?_toDigits positive zero
  rw [wholeDigits, digits_append (isNumeral_toDigits n) ends]
  exact if_neg plain

/-- Where a number ends there is neither a fraction nor an exponent. -/
theorem fractionDigits_of_endsNumber {rest : List Char} (ends : EndsNumber rest) :
    fractionDigits rest = some (none, rest) := by
  unfold fractionDigits
  split
  · exact absurd rfl (ends '.' rfl).2.1
  · rfl

/-- What ends a number is no exponent. -/
theorem exponentPart_of_endsNumber {rest : List Char} (ends : EndsNumber rest) :
    exponentPart rest = some (none, rest) := by
  cases rest with
  | nil => rfl
  | cons c rest =>
    obtain ⟨-, -, lower, upper⟩ := ends c rfl
    have other : ¬(c = 'e' ∨ c = 'E') := not_or.2 ⟨lower, upper⟩
    unfold exponentPart
    exact if_neg other

/-- The text of an integer as the parts of a number. -/
def wholeLiteral (n : Int) : Literal := ⟨decide (n < 0), Nat.toDigits 10 n.natAbs, none, none⟩

/-- The text of an integer is read as a literal. -/
theorem literal_toString (n : Int) {rest : List Char} (ends : EndsNumber rest) :
    literal ((toString n).toList ++ rest) = some (wholeLiteral n, rest) := by
  have whole := wholeDigits_toDigits n.natAbs ends
  have fraction := fractionDigits_of_endsNumber ends
  have exponent := exponentPart_of_endsNumber ends
  rw [toList_toString_int]
  by_cases positive : 0 ≤ n
  · have unsigned : ∀ tail, Nat.toDigits 10 n.natAbs ++ rest ≠ '-' :: tail := by
      obtain ⟨c, ds, cons⟩ := List.exists_cons_of_ne_nil (isNumeral_toDigits n.natAbs).1
      have digit : c.isDigit = true :=
        List.all_eq_true.1 (isNumeral_toDigits n.natAbs).2 c (cons ▸ List.mem_cons_self)
      rw [cons]
      rintro tail same
      cases same
      exact absurd digit (by decide)
    have sign : decide (n < 0) = false := by simpa using positive
    rw [if_pos positive, literal]
    · simp [whole, fraction, exponent, wholeLiteral, sign]
    · exact unsigned
  · have sign : decide (n < 0) = true := by simpa using positive
    rw [if_neg positive, List.cons_append, literal]
    simp [whole, fraction, exponent, wholeLiteral, sign]

/-- Digits that are pushed one after another make up their number as long as it fits. -/
theorem foldl_pushWhole {ds : List Char} {start : Nat}
    (fits : Nat.ofDigitChars 10 ds start ≤ significandLimit) :
    ds.foldl (fun (s : Significand) c => s.pushWhole (c.toNat - '0'.toNat)) ⟨start, 0, false⟩ =
      ⟨Nat.ofDigitChars 10 ds start, 0, false⟩ := by
  induction ds generalizing start with
  | nil => rfl
  | cons c ds ih =>
    rw [Nat.ofDigitChars_cons] at fits ⊢
    have grows : 10 * start + (c.toNat - '0'.toNat) ≤
        Nat.ofDigitChars 10 ds (10 * start + (c.toNat - '0'.toNat)) := by
      rw [Nat.ofDigitChars_eq_ofDigitChars_zero]
      exact Nat.le_add_right_of_le (Nat.le_mul_of_pos_left _ (Nat.pow_pos (by decide)))
    have pushed : Significand.pushWhole ⟨start, 0, false⟩ (c.toNat - '0'.toNat) =
        ⟨10 * start + (c.toNat - '0'.toNat), 0, false⟩ := by
      have small : ¬(false || decide (significandLimit < start * 10 + (c.toNat - '0'.toNat))) := by
        rw [Bool.false_or, decide_eq_true_eq]
        omega
      rw [Significand.pushWhole, if_neg small, Nat.mul_comm]
    rw [List.foldl_cons, pushed, ih fits]

/-- The literal of an integer has its digits, none of them behind a point. -/
theorem significand_wholeLiteral {n : Int} (fits : n.natAbs ≤ significandLimit) :
    (wholeLiteral n).significand = ⟨n.natAbs, 0, false⟩ := by
  have number : Nat.ofDigitChars 10 (Nat.toDigits 10 n.natAbs) 0 = n.natAbs :=
    Nat.ofDigitChars_ten_toDigits
  have pushed := @foldl_pushWhole (Nat.toDigits 10 n.natAbs) 0 (by rwa [number])
  rw [number] at pushed
  simp only [Literal.significand, wholeLiteral, pushed, Option.getD_none, List.foldl_nil]

/-- An integer of 64 bits, with or without a sign, is read back from its text. -/
theorem value?_wholeLiteral {n : Int} (low : -9223372036854775808 ≤ n)
    (high : n < 18446744073709551616) :
    (wholeLiteral n).value? = some (integer n) := by
  have fits : n.natAbs ≤ significandLimit := by
    rw [significandLimit]
    omega
  rw [Literal.value?, significand_wholeLiteral fits]
  obtain ⟨size, number⟩ : ∃ size, n.natAbs = size := ⟨_, rfl⟩
  rw [number]
  by_cases negative : n < 0
  · have nonzero : size ≠ 0 := by omega
    have small : size ≤ 9223372036854775808 := by omega
    have opposite : -(size : Int) = n := by omega
    simp [wholeLiteral, negative, nonzero, small, opposite]
  · have same : (size : Int) = n := by omega
    simp [wholeLiteral, negative, same]

end DeviceBlob.Json
