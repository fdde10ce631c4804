import DeviceBlob.Bytes

/-!
# Parts of byte sequences

How `slice` and `splice` go together.  A slice of a slice is a slice (`slice_slice`), a part that is
put in is found there and changes nothing outside its place (`slice_splice`,
`slice_splice_apart`), two parts that do not meet can be put in in either order (`splice_comm`), and
of two parts put in at one place the second counts (`splice_splice`).
-/

namespace DeviceBlob.Bytes

/-! ### Slices -/

/-- The bytes in front are a slice. -/
theorem slice_eq_take {bytes : Bytes} (length : Nat) : slice bytes 0 length = bytes.take length := by
  simp [slice]

/-- All bytes are a slice. -/
theorem slice_all {bytes : Bytes} {length : Nat} (h : bytes.length = length) :
    slice bytes 0 length = bytes := by
  rw [slice_eq_take, List.take_of_length_le (by omega)]

/-- The bytes of a slice are those of the whole. -/
theorem getElem?_slice (bytes : Bytes) (offset : Nat) {length i : Nat} (h : i < length) :
    (slice bytes offset length)[i]? = bytes[offset + i]? := by
  rw [slice, List.getElem?_take_of_lt h, List.getElem?_drop]

/-- A slice of zeros is zeros. -/
theorem slice_zeros {length offset count : Nat} (h : offset + count ≤ length) :
    slice (zeros length) offset count = zeros count := by
  rw [slice, zeros, List.drop_replicate, List.take_replicate, Nat.min_eq_left (by omega), zeros]

/-- A slice of a slice is a slice. -/
theorem slice_slice {bytes : Bytes} {offset length start count : Nat} (h : start + count ≤ length) :
    slice (slice bytes offset length) start count = slice bytes (offset + start) count := by
  simp only [slice, List.drop_take, List.drop_drop, List.take_take]
  rw [Nat.min_eq_left (by omega)]

/-- The front of a slice is a slice. -/
theorem take_slice (bytes : Bytes) (offset front back : Nat) :
    (slice bytes offset (front + back)).take front = slice bytes offset front := by
  simp only [slice, List.take_take]
  rw [Nat.min_eq_left (by omega)]

/-- The back of a slice is a slice. -/
theorem drop_slice (bytes : Bytes) (offset front back : Nat) :
    (slice bytes offset (front + back)).drop front = slice bytes (offset + front) back := by
  simp only [slice, List.drop_take, List.drop_drop]
  rw [Nat.add_sub_cancel_left]

/-- Two slices next to each other are one. -/
theorem slice_add (bytes : Bytes) (offset front back : Nat) :
    slice bytes offset (front + back) =
      slice bytes offset front ++ slice bytes (offset + front) back := by
  rw [← take_slice bytes offset front back, ← drop_slice bytes offset front back,
    List.take_append_drop]

/-- Where a slice is a front and a back, both are found at their places. -/
theorem slice_eq_append {bytes front back : Bytes} {offset size rest : Nat}
    (h : slice bytes offset (size + rest) = front ++ back) (length : front.length = size) :
    slice bytes offset size = front ∧ slice bytes (offset + size) rest = back := by
  rw [← take_slice bytes offset size rest, ← drop_slice bytes offset size rest, h, ← length]
  exact ⟨List.take_left, List.drop_left⟩

/-- A slice of the front part is one of the whole. -/
theorem slice_append_left {front back : Bytes} {offset length : Nat}
    (h : offset + length ≤ front.length) :
    slice (front ++ back) offset length = slice front offset length := by
  rw [slice, slice, List.drop_append_of_le_length (by omega),
    List.take_append_of_le_length (by rw [List.length_drop]; omega)]

/-- A slice of the back part is one of the whole. -/
theorem slice_append_right {front back : Bytes} {offset : Nat} (length : Nat)
    (h : front.length ≤ offset) :
    slice (front ++ back) offset length = slice back (offset - front.length) length := by
  rw [slice, slice, List.drop_append, List.drop_of_length_le h, List.nil_append]

/-! ### Splices -/

/-- What was put in is found at its place. -/
theorem slice_splice {bytes others : Bytes} {offset length : Nat} (h : offset ≤ bytes.length)
    (size : others.length = length) : slice (splice bytes offset others) offset length = others := by
  subst size
  exact slice_splice_same h

/-- A place that does not meet the part that was put in is as it was. -/
theorem slice_splice_apart {bytes others : Bytes} {offset start length : Nat}
    (h : offset ≤ bytes.length)
    (apart : start + length ≤ offset ∨ offset + others.length ≤ start) :
    slice (splice bytes offset others) start length = slice bytes start length := by
  rcases apart with before | after
  · exact slice_splice_before h before
  · exact slice_splice_after h after

/-- Putting in what is there already changes nothing. -/
theorem splice_of_slice {bytes others : Bytes} {offset : Nat}
    (h : slice bytes offset others.length = others) : splice bytes offset others = bytes := by
  calc splice bytes offset others
      = bytes.take offset ++ slice bytes offset others.length ++
          bytes.drop (offset + others.length) := by rw [splice, h]
    _ = bytes := by
      rw [slice, List.append_assoc, ← List.drop_drop, List.take_append_drop,
        List.take_append_drop]

/-- What is in front of the bytes that are replaced stays. -/
theorem take_splice {bytes others : Bytes} {offset : Nat} (h : offset ≤ bytes.length) :
    (splice bytes offset others).take offset = bytes.take offset := by
  rw [splice, List.append_assoc, List.take_append_of_le_length (by simp [h]), List.take_take,
    Nat.min_self]

/-- What is behind the bytes that are replaced stays. -/
theorem drop_splice {bytes others : Bytes} {offset : Nat} (h : offset ≤ bytes.length) :
    (splice bytes offset others).drop (offset + others.length) =
      bytes.drop (offset + others.length) := by
  have front : (bytes.take offset ++ others).length = offset + others.length := by simp [h]
  rw [splice, ← front, List.drop_left]

/-- Of two parts of one size at one place the second counts. -/
theorem splice_splice {bytes first second : Bytes} {offset : Nat} (h : offset ≤ bytes.length)
    (same : first.length = second.length) :
    splice (splice bytes offset first) offset second = splice bytes offset second := by
  rw [splice, take_splice h, ← same, drop_splice h, splice, same]

/-- Two parts that do not meet can be put in in either order. -/
theorem splice_comm {bytes first second : Bytes} {offset start : Nat}
    (apart : offset + first.length ≤ start) (h : start + second.length ≤ bytes.length) :
    splice (splice bytes offset first) start second =
      splice (splice bytes start second) offset first := by
  apply List.ext_getElem?
  intro i
  have first_front : (bytes.take offset).length = offset := by simp; omega
  have second_front : (bytes.take start).length = start := by simp; omega
  simp only [splice, List.getElem?_append, List.length_append, List.length_take, List.length_drop,
    List.getElem?_take, List.getElem?_drop]
  grind

/-- Replacing bytes inside a slice keeps its length. -/
theorem length_splice_slice {bytes others : Bytes} {offset length start : Nat}
    (inside : start + others.length ≤ length) (h : offset + length ≤ bytes.length) :
    (splice (slice bytes offset length) start others).length = length := by
  rw [length_splice (by rw [length_slice h]; exact inside), length_slice h]

/-- A change within a part is a change of the whole. -/
theorem splice_slice {bytes others : Bytes} {offset length start : Nat}
    (inside : start + others.length ≤ length) (h : offset + length ≤ bytes.length) :
    splice bytes offset (splice (slice bytes offset length) start others) =
      splice bytes (offset + start) others := by
  apply List.ext_getElem?
  intro i
  rw [splice, length_splice_slice inside h]
  simp only [splice, slice, List.getElem?_append, List.length_append, List.length_take,
    List.length_drop, List.getElem?_take, List.getElem?_drop]
  grind

/-- Bytes that are replaced inside a slice are replaced in the slice. -/
theorem slice_splice_within {bytes others : Bytes} {offset length start : Nat}
    (inside : start + others.length ≤ length) (h : offset + length ≤ bytes.length) :
    slice (splice bytes (offset + start) others) offset length =
      splice (slice bytes offset length) start others := by
  rw [← splice_slice inside h, slice_splice (by omega) (length_splice_slice inside h)]

/-- Bytes that are put in the place of all others are all there is. -/
theorem splice_all {bytes others : Bytes} (h : others.length = bytes.length) :
    splice bytes 0 others = others := by
  rw [splice, List.take_zero, List.nil_append, Nat.zero_add, h, List.drop_length, List.append_nil]

/-! ### Parts of one size -/

/-- Parts of one size are together as large as their number says. -/
theorem length_flatten {size : Nat} : ∀ {parts : List Bytes}, (∀ part ∈ parts, part.length = size) →
    parts.flatten.length = parts.length * size
  | [], _ => by simp
  | part :: rest, each => by
    have here := each part List.mem_cons_self
    have others := length_flatten fun other mem => each other (List.mem_cons_of_mem _ mem)
    rw [List.flatten_cons, List.length_append, here, others, List.length_cons, Nat.succ_mul,
      Nat.add_comm]

/-- Where all parts have one size, each is found at a multiple of it. -/
theorem slice_flatten {size : Nat} : ∀ {parts : List Bytes} {i : Nat},
    (∀ part ∈ parts, part.length = size) → (h : i < parts.length) →
      slice parts.flatten (i * size) size = parts[i]
  | [], _, _, h => absurd h (Nat.not_lt_zero _)
  | part :: rest, 0, each, _ => by
    have here := each part List.mem_cons_self
    rw [List.flatten_cons, Nat.zero_mul, slice_append_left (by omega), slice_all here,
      List.getElem_cons_zero]
  | part :: rest, i + 1, each, h => by
    have here := each part List.mem_cons_self
    have others := slice_flatten (fun other mem => each other (List.mem_cons_of_mem _ mem))
      (Nat.lt_of_succ_lt_succ h)
    rw [List.flatten_cons, Nat.succ_mul, slice_append_right _ (by omega), here,
      Nat.add_sub_cancel, others, List.getElem_cons_succ]

/-! ### Integers -/

/-- Bytes in two's complement hold as many negative numbers as others. -/
theorem toInt_bounds (bytes : Bytes) :
    -range bytes.length ≤ 2 * toInt bytes ∧ 2 * toInt bytes < range bytes.length := by
  have below := toNat_lt bytes
  simp only [toInt]
  split <;> omega

/-- Bytes are determined by their integer and their count. -/
theorem ofInt_toInt (bytes : Bytes) : ofInt bytes.length (toInt bytes) = bytes := by
  have below := toNat_lt bytes
  have value : (toInt bytes % range bytes.length).toNat = toNat bytes := by
    simp only [toInt]
    split
    · rw [Int.emod_eq_of_lt (by omega) (by omega), Int.toNat_natCast]
    · rw [Int.sub_emod_right, Int.emod_eq_of_lt (by omega) (by omega), Int.toNat_natCast]
  rw [ofInt, value, ofNat_toNat]

/-- Bytes are those of the number that they stand for. -/
theorem eq_ofInt_of_toInt {bytes : Bytes} {width : Nat} {n : Int} (length : bytes.length = width)
    (h : toInt bytes = n) : bytes = ofInt width n := by
  rw [← length, ← h, ofInt_toInt]

end DeviceBlob.Bytes
