/-!
# Decimal integers as text

`natural?` reads a text of ASCII digits and `integer?` one with an optional sign in front; both
want at least one digit and take leading zeros.  `signed?` keeps what fits a signed word of the
given width.  Reading gives back every number that `toString` prints.
-/

namespace DeviceBlob.Text

/-- The number that a text of one or more ASCII digits stands for. -/
def natural? (cs : List Char) : Option Nat :=
  if cs ≠ [] ∧ cs.all Char.isDigit then some (Nat.ofDigitChars 10 cs 0) else none

/-- The number that a text of digits with an optional `+` or `-` in front stands for. -/
def integer? : List Char → Option Int
  | '-' :: digits => (natural? digits).map fun n => -(n : Int)
  | '+' :: digits => (natural? digits).map Int.ofNat
  | digits => (natural? digits).map Int.ofNat

/-- The integer a text stands for, if it fits a signed word of `bits` bits. -/
def signed? (bits : Nat) (cs : List Char) : Option Int :=
  let bound : Int := Nat.pow 2 (bits - 1)
  (integer? cs).filter fun n => -bound ≤ n && n < bound

/-- The 64-bit integer that a text stands for. -/
def int64? (s : String) : Option Int64 :=
  (signed? 64 s.toList).map Int64.ofInt

/-- The 32-bit integer that a text stands for. -/
def int32? (s : String) : Option Int32 :=
  (signed? 32 s.toList).map Int32.ofInt

/-- The digits of a natural number are read back. -/
@[simp] theorem natural?_toDigits (n : Nat) : natural? (Nat.toDigits 10 n) = some n := by
  have digits : (Nat.toDigits 10 n).all Char.isDigit := by
    simp only [List.all_eq_true]
    exact fun c hc => Nat.isDigit_of_mem_toDigits (by decide) (by decide) hc
  have nonempty : Nat.toDigits 10 n ≠ [] := by
    intro h
    have positive : 0 < (Nat.toDigits 10 n).length := Nat.length_toDigits_pos
    simp [h] at positive
  simp [natural?, nonempty, digits, Nat.ofDigitChars_ten_toDigits]

end DeviceBlob.Text
