/-!
# Bytes

A blob is a sequence of bytes.  `slice` looks at some of them and `splice` replaces some of them;
integers are stored with the lowest byte first.  Main statements: what `splice` puts in, `slice`
finds there, and slices that do not meet it stay as they are; an integer that fits its width is read
back as it was written.
-/

namespace DeviceBlob

/-- A sequence of bytes. -/
abbrev Bytes := List UInt8

namespace Bytes

/-- The bytes from an offset on, at most as many as the length says. -/
def slice (bytes : Bytes) (offset length : Nat) : Bytes :=
  (bytes.drop offset).take length

/-- The bytes with others put in their place from an offset on. -/
def splice (bytes : Bytes) (offset : Nat) (others : Bytes) : Bytes :=
  bytes.take offset ++ others ++ bytes.drop (offset + others.length)

/-- Bytes that are all zero. -/
def zeros (length : Nat) : Bytes := List.replicate length 0

/-- There are as many zeros as are asked for. -/
@[simp] theorem length_zeros (length : Nat) : (zeros length).length = length := by
  simp [zeros]

/-- A slice inside the bytes has its full length. -/
theorem length_slice {bytes : Bytes} {offset length : Nat} (h : offset + length ≤ bytes.length) :
    (slice bytes offset length).length = length := by
  simp only [slice, List.length_take, List.length_drop]
  omega

/-- Replacing bytes inside others changes no length. -/
theorem length_splice {bytes : Bytes} {offset : Nat} {others : Bytes}
    (h : offset + others.length ≤ bytes.length) :
    (splice bytes offset others).length = bytes.length := by
  simp only [splice, List.length_append, List.length_take, List.length_drop]
  omega

/-- What was put in is found at its place. -/
theorem slice_splice_same {bytes : Bytes} {offset : Nat} {others : Bytes}
    (h : offset ≤ bytes.length) :
    slice (splice bytes offset others) offset others.length = others := by
  have front : (bytes.take offset).length = offset := by simp [h]
  simp only [slice, splice, List.append_assoc]
  rw [List.drop_append_of_le_length (by omega), List.drop_of_length_le (by omega)]
  simp

/-- Bytes before the place stay as they are. -/
theorem slice_splice_before {bytes : Bytes} {offset start length : Nat} {others : Bytes}
    (h : offset ≤ bytes.length) (before : start + length ≤ offset) :
    slice (splice bytes offset others) start length = slice bytes start length := by
  apply List.ext_getElem?
  intro i
  simp only [slice, splice, List.append_assoc, List.getElem?_take, List.getElem?_drop]
  split
  · rw [List.getElem?_append_left (by simp; omega), List.getElem?_take_of_lt (by omega)]
  · rfl

/-- Bytes behind the place stay as they are. -/
theorem slice_splice_after {bytes : Bytes} {offset start length : Nat} {others : Bytes}
    (h : offset ≤ bytes.length) (after : offset + others.length ≤ start) :
    slice (splice bytes offset others) start length = slice bytes start length := by
  have front : (bytes.take offset).length = offset := by simp [h]
  apply List.ext_getElem?
  intro i
  simp only [slice, splice, List.append_assoc, List.getElem?_take, List.getElem?_drop]
  split
  · rw [List.getElem?_append_right (by omega), List.getElem?_append_right (by omega),
      List.getElem?_drop]
    congr 1
    omega
  · rfl

/-! ### Integers -/

/-- How many numbers the given count of bytes can tell apart. -/
def range : (width : Nat) → Nat
  | 0 => 1
  | width + 1 => 256 * range width

/-- Some number fits any width. -/
theorem range_pos (width : Nat) : 0 < range width := by
  induction width with
  | zero => decide
  | succ width ih =>
    simp only [range]
    omega

/-- The number in the given count of bytes, lowest byte first.  What does not fit is cut off. -/
def ofNat : (width : Nat) → Nat → Bytes
  | 0, _ => []
  | width + 1, n => UInt8.ofNat n :: ofNat width (n / 256)

/-- The number that bytes stand for, lowest byte first. -/
def toNat : Bytes → Nat
  | [] => 0
  | byte :: rest => byte.toNat + 256 * toNat rest

/-- The integer in the given count of bytes, in two's complement. -/
def ofInt (width : Nat) (n : Int) : Bytes :=
  ofNat width (n % range width).toNat

/-- The integer that bytes stand for in two's complement. -/
def toInt (bytes : Bytes) : Int :=
  let n := toNat bytes
  if 2 * n < range bytes.length then n else n - range bytes.length

/-- A number has as many bytes as are asked for. -/
@[simp] theorem length_ofNat (width n : Nat) : (ofNat width n).length = width := by
  induction width generalizing n with
  | zero => rfl
  | succ width ih => simp [ofNat, ih]

/-- So has an integer. -/
@[simp] theorem length_ofInt (width : Nat) (n : Int) : (ofInt width n).length = width := by
  simp [ofInt]

/-- Bytes stand for a number that fits their width. -/
theorem toNat_lt (bytes : Bytes) : toNat bytes < range bytes.length := by
  induction bytes with
  | nil => decide
  | cons byte rest ih =>
    have := byte.toNat_lt
    simp only [toNat, List.length_cons, range]
    omega

/-- A number is read back up to what its width cut off. -/
theorem toNat_ofNat (width n : Nat) : toNat (ofNat width n) = n % range width := by
  induction width generalizing n with
  | zero => simp [ofNat, toNat, range, Nat.mod_one]
  | succ width ih =>
    simp only [ofNat, toNat, ih, range]
    rw [Nat.mod_mul]
    simp

/-- Bytes are determined by their number and their count. -/
theorem ofNat_toNat (bytes : Bytes) : ofNat bytes.length (toNat bytes) = bytes := by
  induction bytes with
  | nil => rfl
  | cons byte rest ih =>
    have small := byte.toNat_lt
    simp only [List.length_cons, ofNat, toNat]
    rw [Nat.add_mul_div_left _ _ (by decide), Nat.div_eq_of_lt small, Nat.zero_add, ih]
    congr 1
    apply UInt8.toNat_inj.1
    simp

/-- An integer that fits its width is read back as it was written. -/
theorem toInt_ofInt {width : Nat} {n : Int} (low : -range width ≤ 2 * n)
    (high : 2 * n < range width) : toInt (ofInt width n) = n := by
  have positive := range_pos width
  have nonneg := Int.emod_nonneg n (b := range width) (by omega)
  have below := Int.emod_lt_of_pos n (b := range width) (by omega)
  have value : toNat (ofInt width n) = (n % range width).toNat := by
    rw [ofInt, toNat_ofNat, Nat.mod_eq_of_lt]
    omega
  simp only [toInt, value, length_ofInt]
  rcases Int.lt_or_le n 0 with negative | notNegative
  · have wrapped : n % range width = n + range width := by
      rw [← Int.add_emod_right, Int.emod_eq_of_lt (by omega) (by omega)]
    split <;> omega
  · have kept : n % range width = n := Int.emod_eq_of_lt notNegative (by omega)
    split <;> omega

end Bytes

end DeviceBlob
