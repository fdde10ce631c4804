import DeviceBlob.Blob.Slots
import DeviceBlob.Proofs.Bytes
import DeviceBlob.Proofs.Layout.WellFormed
import Mathlib.Data.List.Perm.Subperm

/-!
# The header and the slots of an array

The parts of an array do not get in each other's way: a slot that is written holds what was written
(`slot_setSlot_same`), and neither the other slots nor the header change (`slot_setSlot_other`,
`readWord_setSlot`), just as the slots stay when the count does (`slot_setCount`).  An array is
looked at through its slots: `occupied_eq` lists those that hold an element by their indices.
-/

namespace DeviceBlob.Slots

/-! ### Words -/

/-- The integer fits a header field or an index. -/
def IsWord (n : Int) : Prop := -2147483648 ≤ n ∧ n ≤ 2147483647

/-- The mark of an empty slot is a number of 32 bits. -/
theorem isWord_emptyIndex : IsWord emptyIndex := by
  unfold IsWord emptyIndex
  omega

/-- Natural numbers below 2^31 are numbers of 32 bits. -/
theorem isWord_of_le {n : Nat} (h : n ≤ 2147483647) : IsWord n := by
  unfold IsWord
  omega

/-- A number in a header takes four bytes. -/
@[simp] theorem length_word (n : Int) : (Bytes.ofInt wordSize n).length = 4 :=
  Bytes.length_ofInt 4 n

variable {bytes : Bytes} {offset start : Nat} {n m : Int}

/-- A number of 32 bits is read back. -/
theorem toInt_word (fits : IsWord n) : Bytes.toInt (Bytes.ofInt wordSize n) = n := by
  obtain ⟨low, high⟩ := fits
  apply Bytes.toInt_ofInt
  · simp only [wordSize, Bytes.range]
    omega
  · simp only [wordSize, Bytes.range]
    omega

/-- The first number that no word can hold is read as the least one. -/
theorem toInt_word_of_le {n : Nat} (most : n ≤ 2147483648) :
    Bytes.toInt (Bytes.ofInt wordSize n) = if n < 2147483648 then (n : Int) else -2147483648 := by
  split
  · exact toInt_word (isWord_of_le (by omega))
  · obtain rfl : n = 2147483648 := by omega
    decide

/-- Four bytes hold a number of 32 bits. -/
theorem isWord_readWord (room : offset + 4 ≤ bytes.length) : IsWord (readWord bytes offset) := by
  have length : (bytes.slice offset wordSize).length = 4 := Bytes.length_slice room
  have bounds := Bytes.toInt_bounds (bytes.slice offset wordSize)
  rw [length] at bounds
  simp only [Bytes.range] at bounds
  unfold IsWord readWord
  omega

/-- Writing a number changes no length. -/
theorem length_writeWord (room : offset + 4 ≤ bytes.length) :
    (writeWord bytes offset n).length = bytes.length := by
  refine Bytes.length_splice ?_
  rw [length_word]
  exact room

/-- A word is read as far as it fits. -/
theorem readWord_writeWord_eq (room : offset + 4 ≤ bytes.length) :
    readWord (writeWord bytes offset n) offset = Bytes.toInt (.ofInt wordSize n) := by
  have found : (bytes.splice offset (Bytes.ofInt wordSize n)).slice offset wordSize =
      Bytes.ofInt wordSize n := Bytes.slice_splice (by omega) (length_word n)
  rw [readWord, writeWord, found]

/-- A number that was written is read back. -/
theorem readWord_writeWord (room : offset + 4 ≤ bytes.length) (fits : IsWord n) :
    readWord (writeWord bytes offset n) offset = n := by
  rw [readWord_writeWord_eq room, toInt_word fits]

/-- A word elsewhere leaves a slice as it is. -/
theorem slice_writeWord_apart {length : Nat} (room : offset + 4 ≤ bytes.length)
    (apart : start + length ≤ offset ∨ offset + 4 ≤ start) :
    (writeWord bytes offset n).slice start length = bytes.slice start length := by
  refine Bytes.slice_splice_apart (by omega) ?_
  rw [length_word]
  exact apart

/-- Numbers that are apart do not change one another. -/
theorem readWord_writeWord_apart (room : offset + 4 ≤ bytes.length)
    (apart : start + 4 ≤ offset ∨ offset + 4 ≤ start) :
    readWord (writeWord bytes offset n) start = readWord bytes start := by
  have kept := @slice_writeWord_apart bytes offset start n wordSize room apart
  rw [readWord, kept, readWord]

/-- Of two numbers written in one place the second stays. -/
theorem writeWord_writeWord (room : offset + 4 ≤ bytes.length) :
    writeWord (writeWord bytes offset n) offset m = writeWord bytes offset m :=
  Bytes.splice_splice (by omega) (by simp)

/-- Writing the word that is there changes nothing. -/
theorem writeWord_of_readWord (room : offset + 4 ≤ bytes.length)
    (held : readWord bytes offset = n) : writeWord bytes offset n = bytes := by
  have word : bytes.slice offset wordSize = Bytes.ofInt wordSize n :=
    Bytes.eq_ofInt_of_toInt (Bytes.length_slice room) held
  refine Bytes.splice_of_slice ?_
  rw [length_word]
  exact word

/-! ### Where the slots are -/

variable {element : Layout} {capacity i j : Nat} {content : Bytes}

/-- Slots are behind the header. -/
theorem headerSize_le_slotOffset : Layout.headerSize ≤ element.slotOffset i :=
  Nat.le_add_right _ _

/-- A slot ends before a later one starts. -/
theorem slotOffset_add_le (before : i < j) :
    element.slotOffset i + element.size ≤ element.slotOffset j := by
  have next : (i + 1) * element.size ≤ j * element.size := Nat.mul_le_mul_right _ before
  rw [Nat.succ_mul] at next
  simp only [Layout.slotOffset]
  omega

/-- The bytes have room for the header and all slots. -/
def Holds (capacity : Nat) (element : Layout) (bytes : Bytes) : Prop :=
  Layout.headerSize + capacity * element.size ≤ bytes.length

/-- Where there is room for all slots there is room for each of them. -/
theorem Holds.slot (room : Holds capacity element bytes) (h : i < capacity) :
    element.slotOffset i + element.size ≤ bytes.length := by
  have last : element.slotOffset i + element.size ≤ element.slotOffset capacity :=
    slotOffset_add_le h
  exact Nat.le_trans last room

/-- Where there is room for all slots there is room for the header. -/
theorem Holds.header (room : Holds capacity element bytes) : 8 ≤ bytes.length :=
  Nat.le_trans (Nat.le_add_right _ _) room

/-- A slot has the size of an element. -/
theorem length_slot (room : Holds capacity element bytes) (h : i < capacity) :
    (slot element bytes i).length = element.size :=
  Bytes.length_slice (room.slot h)

/-! ### Writing a slot -/

/-- Filling a slot changes no length. -/
theorem length_setSlot (room : Holds capacity element bytes) (h : i < capacity)
    (size : content.length = element.size) :
    (setSlot element bytes i content).length = bytes.length := by
  refine Bytes.length_splice ?_
  rw [size]
  exact room.slot h

/-- There stays room for all slots when one is filled. -/
theorem Holds.setSlot (room : Holds capacity element bytes) (h : i < capacity)
    (size : content.length = element.size) :
    Holds capacity element (setSlot element bytes i content) := by
  rw [Holds, length_setSlot room h size]
  exact room

/-- A slot holds what was written into it. -/
theorem slot_setSlot_same (room : Holds capacity element bytes) (h : i < capacity)
    (size : content.length = element.size) :
    slot element (setSlot element bytes i content) i = content := by
  have inside := room.slot h
  exact Bytes.slice_splice (by omega) size

/-- Writing one slot leaves the others as they are. -/
theorem slot_setSlot_other (room : Holds capacity element bytes) (h : i < capacity)
    (size : content.length = element.size) (other : j ≠ i) :
    slot element (setSlot element bytes i content) j = slot element bytes j := by
  have inside := room.slot h
  refine Bytes.slice_splice_apart (by omega) ?_
  rw [size]
  rcases Nat.lt_or_gt_of_ne other with before | after
  · exact Or.inl (slotOffset_add_le before)
  · exact Or.inr (slotOffset_add_le after)

/-- Writing a slot leaves the header as it is. -/
theorem slice_setSlot_header {length : Nat} (room : Holds capacity element bytes) (h : i < capacity)
    (header : start + length ≤ Layout.headerSize) :
    (setSlot element bytes i content).slice start length = bytes.slice start length := by
  have inside := room.slot h
  have front : Layout.headerSize ≤ element.slotOffset i := headerSize_le_slotOffset
  exact Bytes.slice_splice_before (by omega) (by omega)

/-- Filling a slot does not change the header. -/
theorem readWord_setSlot (room : Holds capacity element bytes) (h : i < capacity)
    (header : start + 4 ≤ Layout.headerSize) :
    readWord (setSlot element bytes i content) start = readWord bytes start :=
  congrArg Bytes.toInt (slice_setSlot_header room h header)

/-- Of two contents for one slot the second stays. -/
theorem setSlot_setSlot {second : Bytes} (room : Holds capacity element bytes) (h : i < capacity)
    (size : content.length = element.size) (size' : second.length = element.size) :
    setSlot element (setSlot element bytes i content) i second =
      setSlot element bytes i second := by
  have inside := room.slot h
  exact Bytes.splice_splice (by omega) (size.trans size'.symm)

/-- Filling a slot with what it holds changes nothing. -/
theorem setSlot_slot (room : Holds capacity element bytes) (h : i < capacity) :
    setSlot element bytes i (slot element bytes i) = bytes := by
  refine Bytes.splice_of_slice ?_
  rw [length_slot room h]
  rfl

/-! ### The index of a slot -/

/-- The index of a slot is the first number in it. -/
theorem indexAt_eq_readWord_slot (small : 4 ≤ element.size) :
    indexAt element bytes i = readWord (slot element bytes i) 0 := by
  rw [indexAt, readWord, readWord, slot, Bytes.slice_slice (by simp only [wordSize]; omega)]
  rfl

/-- To mark a slot is to write it with another index at its start. -/
theorem setIndex_eq_setSlot (small : 4 ≤ element.size) (room : Holds capacity element bytes)
    (h : i < capacity) :
    setIndex element bytes i n = setSlot element bytes i (writeWord (slot element bytes i) 0 n) := by
  have inside := room.slot h
  rw [setIndex, writeWord, setSlot, writeWord, slot, Bytes.splice_slice _ (room.slot h)]
  · rfl
  · rw [length_word]
    omega

/-- A slot keeps its size when its index is written. -/
theorem length_writeWord_slot (small : 4 ≤ element.size) (room : Holds capacity element bytes)
    (h : i < capacity) : (writeWord (slot element bytes i) 0 n).length = element.size := by
  rw [length_writeWord (by rw [length_slot room h]; omega), length_slot room h]

/-! ### The count -/

/-- Writing the count changes no length. -/
theorem length_setCount (room : Holds capacity element bytes) (count : Nat) :
    (setCount bytes count).length = bytes.length :=
  length_writeWord (by have := room.header; omega)

/-- There stays room for all slots when the count is written. -/
theorem Holds.setCount (room : Holds capacity element bytes) (count : Nat) :
    Holds capacity element (setCount bytes count) := by
  rw [Holds, length_setCount room count]
  exact room

/-- The count is no part of any slot. -/
theorem slot_setCount (room : Holds capacity element bytes) (count : Nat) :
    slot element (setCount bytes count) i = slot element bytes i := by
  have front : Layout.headerSize ≤ element.slotOffset i := headerSize_le_slotOffset
  exact slice_writeWord_apart (by have := room.header; omega) (Or.inr front)

/-- Writing the count does not change the capacity. -/
theorem storedCapacity_setCount (room : Holds capacity element bytes) (count : Nat) :
    storedCapacity (setCount bytes count) = storedCapacity bytes :=
  readWord_writeWord_apart (by have := room.header; omega) (Or.inl (by decide))

/-- The count that was written is read back. -/
theorem storedCount_setCount (room : Holds capacity element bytes) {count : Nat}
    (small : count ≤ 2147483647) : storedCount (setCount bytes count) = count :=
  readWord_writeWord (by have := room.header; omega) (isWord_of_le small)

/-- Of two counts the second stays. -/
theorem setCount_setCount (room : Holds capacity element bytes) (first second : Nat) :
    setCount (setCount bytes first) second = setCount bytes second :=
  writeWord_writeWord (by have := room.header; omega)

/-- The count and a slot can be written in either order. -/
theorem setSlot_setCount (room : Holds capacity element bytes) (h : i < capacity)
    (size : content.length = element.size) (count : Nat) :
    setSlot element (setCount bytes count) i content =
      setCount (setSlot element bytes i content) count := by
  have front : Layout.headerSize ≤ element.slotOffset i := headerSize_le_slotOffset
  refine Bytes.splice_comm ?_ ?_
  · rw [length_word]
    exact front
  · rw [size]
    exact room.slot h

/-! ### The list of slots -/

/-- All slots are the slots below the capacity. -/
theorem all_eq_map (capacity : Nat) (element : Layout) (bytes : Bytes) :
    all capacity element bytes = (List.range capacity).map (slot element bytes) := by
  apply List.ext_getElem?
  intro i
  by_cases h : i < capacity
  · rw [getElem?_all h, List.getElem?_map, List.getElem?_range h]
    rfl
  · rw [List.getElem?_eq_none (by simp [all]; omega), List.getElem?_eq_none (by simp; omega)]

/-- The slots that hold an element are those with an index that is not negative, in order. -/
theorem occupied_eq (capacity : Nat) (element : Layout) (bytes : Bytes) :
    occupied capacity element bytes =
      ((List.range capacity).filter fun i => isOccupied (slot element bytes i)).map
        fun i => (i, slot element bytes i) := by
  have numbered : (all capacity element bytes).zipIdx =
      (List.range capacity).map fun i => (slot element bytes i, i) := by
    rw [all_eq_map]
    apply List.ext_getElem?
    intro i
    by_cases h : i < capacity
    · simp [h]
    · simp [h]
  rw [occupied, numbered, List.filter_map, List.map_map]
  rfl

/-- The present slots are those below the capacity that are occupied. -/
theorem present_eq (capacity : Nat) (element : Layout) (bytes : Bytes) :
    present capacity element bytes =
      (List.range capacity).filter fun i => isOccupied (slot element bytes i) := by
  rw [present, occupied_eq, List.map_map]
  exact List.map_id _

/-- The first numbers of a range, if they are those that are kept. -/
theorem filter_range_eq {n : Nat} {kept : Nat → Bool} (small : n ≤ capacity)
    (first : ∀ i < capacity, kept i = true ↔ i < n) :
    (List.range capacity).filter kept = List.range n := by
  obtain ⟨rest, rfl⟩ := Nat.exists_eq_add_of_le small
  have front : (List.range n).filter kept = List.range n := by
    rw [List.filter_eq_self]
    intro i mem
    have inside := List.mem_range.1 mem
    exact (first i (by omega)).2 inside
  have back : ((List.range rest).map (n + ·)).filter kept = [] := by
    rw [List.filter_eq_nil_iff]
    intro i mem here
    obtain ⟨more, bound, rfl⟩ := List.mem_map.1 mem
    have inside := List.mem_range.1 bound
    have := (first (n + more) (by omega)).1 here
    omega
  rw [List.range_add, List.filter_append, front, back, List.append_nil]

/-- Numbers below a bound that are there once each are among the first numbers. -/
theorem subperm_range {slots : List Nat} {bound : Nat} (once : slots.Nodup)
    (below : ∀ i ∈ slots, i < bound) : slots.Subperm (List.range bound) :=
  once.subperm fun i mem => List.mem_range.2 (below i mem)

/-- There are not more different slots than slots. -/
theorem length_le_of_nodup {slots : List Nat} {bound : Nat} (once : slots.Nodup)
    (below : ∀ i ∈ slots, i < bound) : slots.length ≤ bound := by
  have fewer := (subperm_range once below).length_le
  rwa [List.length_range] at fewer

/-- There are not more present slots than the capacity says. -/
theorem length_present_le (capacity : Nat) (element : Layout) (bytes : Bytes) :
    (present capacity element bytes).length ≤ capacity := by
  rw [present_eq]
  have fewer := List.length_filter_le (fun i => isOccupied (slot element bytes i))
    (List.range capacity)
  rwa [List.length_range] at fewer

/-- A slot is present if it is below the capacity and occupied. -/
theorem mem_present_iff : i ∈ present capacity element bytes ↔
    i < capacity ∧ isOccupied (slot element bytes i) = true := by
  rw [present_eq, List.mem_filter, List.mem_range]

/-- If as many slots at the front hold an element as there are elements, these are all. -/
theorem present_eq_range (front : ∀ i < (present capacity element bytes).length,
    isOccupied (slot element bytes i) = true) : present capacity element bytes =
      List.range (present capacity element bytes).length := by
  have small := length_present_le capacity element bytes
  have sublist : (List.range (present capacity element bytes).length).Sublist
      (present capacity element bytes) := by
    rw [present_eq] at front small ⊢
    have kept := (List.range_sublist.2 small).filter fun i => isOccupied (slot element bytes i)
    rwa [List.filter_eq_self.2 fun i mem => front i (List.mem_range.1 mem)] at kept
  exact (sublist.eq_of_length (List.length_range)).symm

/-- Where all slots are the same, so are those that hold an element. -/
theorem occupied_congr {other : Bytes}
    (same : ∀ i < capacity, slot element bytes i = slot element other i) :
    occupied capacity element bytes = occupied capacity element other := by
  have slots : all capacity element bytes = all capacity element other := by
    rw [all_eq_map, all_eq_map]
    exact List.map_congr_left fun i mem => same i (List.mem_range.1 mem)
  rw [occupied, occupied, slots]

/-- Which slots are present depends on the slots only. -/
theorem present_congr {other : Bytes}
    (same : ∀ i < capacity, slot element bytes i = slot element other i) :
    present capacity element bytes = present capacity element other := by
  rw [present, present, occupied_congr same]

/-- The slots of an array lie inside the bytes of its layout. -/
theorem occupied_slice {name : String} (capacity : Nat) (element : Layout) (bytes : Bytes) :
    occupied capacity element (bytes.slice 0 (Layout.array name capacity element).size) =
      occupied capacity element bytes := by
  refine occupied_congr fun i inside => ?_
  have bounds : element.slotOffset i + element.size ≤ (Layout.array name capacity element).size :=
    slotOffset_add_le inside
  rw [slot, Bytes.slice_slice bounds, Nat.zero_add]
  rfl

/-- The count in the header does not say which slots hold an element. -/
theorem present_setCount (room : Holds capacity element bytes) (count : Nat) :
    present capacity element (setCount bytes count) = present capacity element bytes :=
  present_congr fun _ _ => slot_setCount room count

/-! ### The number of elements in the header -/

/-- The header of an array holds the number of its elements. -/
def Counted (capacity : Nat) (element : Layout) (bytes : Bytes) : Prop :=
  bytes.slice 4 4 = .ofInt 4 (present capacity element bytes).length

/-- A count that is the number of present slots is right. -/
theorem counted_of_storedCount (room : Holds capacity element bytes)
    (count : storedCount bytes = (present capacity element bytes).length) :
    Counted capacity element bytes :=
  Bytes.eq_ofInt_of_toInt (Bytes.length_slice room.header) count

/-- Counting makes the header right. -/
theorem counted_recount (room : Holds capacity element bytes) :
    Counted capacity element (recount capacity element bytes) := by
  have found : (setCount bytes (present capacity element bytes).length).slice 4 4 =
      .ofInt 4 (present capacity element bytes).length :=
    Bytes.slice_splice (by have := room.header; omega) (Bytes.length_ofInt 4 _)
  rw [Counted, recount, present_setCount room, found]

/-- Where the header is right, counting again changes nothing. -/
theorem Counted.recount_eq (counted : Counted capacity element bytes) :
    recount capacity element bytes = bytes :=
  Bytes.splice_of_slice counted

/-- A slot keeps what it says about itself if its index stays the same. -/
theorem present_setSlot (room : Holds capacity element bytes) (h : i < capacity)
    (size : content.length = element.size)
    (index : readWord content 0 = readWord (slot element bytes i) 0) :
    present capacity element (setSlot element bytes i content) =
      present capacity element bytes := by
  rw [present_eq, present_eq]
  apply List.filter_congr
  intro j mem
  by_cases same : j = i
  · subst same
    rw [slot_setSlot_same room h size, isOccupied, isOccupied, index]
  · rw [slot_setSlot_other room h size same]

/-- The count stays right when a slot is filled and keeps its index. -/
theorem Counted.setSlot (counted : Counted capacity element bytes)
    (room : Holds capacity element bytes) (h : i < capacity) (size : content.length = element.size)
    (index : readWord content 0 = readWord (slot element bytes i) 0) :
    Counted capacity element (setSlot element bytes i content) := by
  rw [Counted, present_setSlot room h size index,
    slice_setSlot_header room h (by decide)]
  exact counted

/-! ### Arrays put together from slots -/

variable {header behind : Bytes} {parts : List Bytes}

/-- A header and its slots have room for all slots. -/
theorem holds_of_parts (front : header.length = Layout.headerSize)
    (each : ∀ part ∈ parts, part.length = element.size) :
    Holds parts.length element (header ++ parts.flatten ++ behind) := by
  rw [Holds, List.length_append, List.length_append, front, Bytes.length_flatten each]
  omega

/-- The slots of an array are what it was put together from. -/
theorem slot_of_parts (front : header.length = Layout.headerSize)
    (each : ∀ part ∈ parts, part.length = element.size) (h : i < parts.length) :
    slot element (header ++ parts.flatten ++ behind) i = parts[i] := by
  have size := Bytes.length_flatten each
  have inside : i * element.size + element.size ≤ parts.length * element.size := by
    rw [← Nat.succ_mul]
    exact Nat.mul_le_mul_right _ h
  rw [slot, Layout.slotOffset, List.append_assoc, Bytes.slice_append_right _ (by omega), front,
    Nat.add_sub_cancel_left, Bytes.slice_append_left (by omega), Bytes.slice_flatten each h]

end DeviceBlob.Slots

namespace DeviceBlob.Layout

/-! ### Blank layouts -/

/-- An empty slot with nothing left in it. -/
def blankSlot (element : Layout) : Bytes := Slots.writeWord element.blank 0 Slots.emptyIndex

mutual

/-- A blank layout has all its bytes. -/
theorem length_blank : ∀ {layout : Layout}, layout.WellFormed → layout.blank.length = layout.size
  | scalar kind, _ => Bytes.length_zeros kind.width
  | enum _, _ => Bytes.length_zeros 4
  | padding kind, _ => Bytes.length_zeros kind.width
  | record _ _, h => length_blankFields h.1
  | array _ capacity element, h => by
    have item := length_blank h.2
    have slot : (Slots.writeWord element.blank 0 Slots.emptyIndex).length = element.size := by
      rw [Slots.length_writeWord (by have := h.1.four_le_size; omega), item]
    have slots := @Bytes.length_flatten element.size
      (List.replicate capacity (Slots.writeWord element.blank 0 Slots.emptyIndex))
      (fun part mem => by rw [List.eq_of_mem_replicate mem, slot])
    rw [blank, List.length_append, List.length_append, slots, List.length_replicate, size_array,
      Bytes.length_ofInt, Bytes.length_zeros, headerSize]

/-- Blank fields are as large as the fields. -/
theorem length_blankFields : ∀ {fields : List (String × Layout)}, FieldsWellFormed fields →
    (blankFields fields).length = fieldsSize fields
  | [], _ => rfl
  | (_, layout) :: rest, h => by
    rw [blankFields, List.length_append, length_blank h.2.1, length_blankFields h.2.2,
      fieldsSize_cons]

end

variable {name : String} {capacity : Nat} {element : Layout}

/-- A blank slot is as large as an element. -/
theorem length_blankSlot (item : element.WellFormed) (starts : element.StartsWithIndex) :
    element.blankSlot.length = element.size := by
  have length := length_blank item
  rw [blankSlot, Slots.length_writeWord (by have := starts.four_le_size; omega), length]

/-- A blank slot is marked as empty. -/
theorem readWord_blankSlot (item : element.WellFormed) (starts : element.StartsWithIndex) :
    Slots.readWord element.blankSlot 0 = Slots.emptyIndex := by
  have length := length_blank item
  exact Slots.readWord_writeWord (by have := starts.four_le_size; omega) Slots.isWord_emptyIndex

/-- A blank array has room for all its slots. -/
theorem holds_blank (h : (array name capacity element).WellFormed) :
    Slots.Holds capacity element (array name capacity element).blank := by
  rw [Slots.Holds, length_blank h]
  exact Nat.le_refl _

/-- All slots of a blank array are blank. -/
theorem slot_blank (h : (array name capacity element).WellFormed) {i : Nat} (bound : i < capacity) :
    Slots.slot element (array name capacity element).blank i = element.blankSlot := by
  have size := length_blankSlot h.2 h.1
  have found := @Slots.slot_of_parts element i (Bytes.ofInt 4 capacity ++ Bytes.zeros 4) []
    (List.replicate capacity element.blankSlot) (by simp [headerSize])
    (fun part mem => by rw [List.eq_of_mem_replicate mem, size]) (by simpa using bound)
  rw [List.append_nil, List.getElem_replicate] at found
  exact found

/-- A blank array has its capacity in its header. -/
theorem slice_blank_capacity :
    (array name capacity element).blank.slice 0 4 = .ofInt 4 capacity := by
  rw [blank, List.append_assoc, Bytes.slice_append_left (by simp), Bytes.slice_all (by simp)]

/-- A blank array holds its capacity. -/
theorem storedCapacity_blank (small : capacity ≤ 2147483647) :
    Slots.storedCapacity (array name capacity element).blank = capacity := by
  have header : (array name capacity element).blank.slice 0 Slots.wordSize =
      .ofInt Slots.wordSize capacity := slice_blank_capacity
  rw [Slots.storedCapacity, Slots.readWord, header]
  exact Slots.toInt_word (Slots.isWord_of_le small)

/-- A blank array has no elements. -/
theorem slice_blank_count : (array name capacity element).blank.slice 4 4 = .ofInt 4 0 := by
  have front : (Bytes.ofInt 4 capacity).length = 4 := Bytes.length_ofInt 4 capacity
  rw [blank, List.append_assoc, Bytes.slice_append_right _ (Nat.le_of_eq front), front,
    Bytes.slice_append_left (by simp)]
  decide

/-- A blank array has the count 0. -/
theorem storedCount_blank : Slots.storedCount (array name capacity element).blank = 0 := by
  have header : (array name capacity element).blank.slice 4 Slots.wordSize =
      .ofInt Slots.wordSize 0 := slice_blank_count
  rw [Slots.storedCount, Slots.readWord, header]
  decide

/-- No slot of a blank array is present. -/
theorem present_blank (h : (array name capacity element).WellFormed) :
    Slots.present capacity element (array name capacity element).blank = [] := by
  rw [Slots.present_eq, List.filter_eq_nil_iff]
  intro slot mem
  rw [slot_blank h (List.mem_range.1 mem), Slots.isOccupied, readWord_blankSlot h.2 h.1]
  simp

/-- The count of a blank array is right. -/
theorem counted_blank (h : (array name capacity element).WellFormed) :
    Slots.Counted capacity element (array name capacity element).blank := by
  rw [Slots.Counted, present_blank h, slice_blank_count]
  rfl

end DeviceBlob.Layout
