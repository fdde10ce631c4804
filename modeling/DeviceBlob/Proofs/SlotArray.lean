import DeviceBlob.Proofs.Blob.Write
import DeviceBlob.SlotArray

/-!
# Arrays of slots stay sound

A `Sound` array has its capacity and the number of its elements in its header, and each of its slots
either has its own number as its index or is empty with index `-1`.  All that is ever done to one
slot is to `put` other bytes into it and to count again, so `perform_cases` reduces the seven
operations to `put` and to the three that concern the array as a whole.  From it follow that every
operation keeps an array sound (`Sound.perform`), hence every run does (`Sound.run`), and what an
array allows to say after any run (`run_of_allocate`).
-/

namespace DeviceBlob.SlotArray

/-- The array with other bytes in a slot and the count that follows from them. -/
def put (array : SlotArray) (slot : Nat) (content : Bytes) : SlotArray :=
  { array with bytes := Slots.setSlot array.element array.bytes slot content }.recount

/-- Filling a slot does not change the capacity. -/
@[simp] theorem put_capacity (array : SlotArray) (slot : Nat) (content : Bytes) :
    (array.put slot content).capacity = array.capacity := rfl

/-- Filling a slot does not change what the elements are. -/
@[simp] theorem put_element (array : SlotArray) (slot : Nat) (content : Bytes) :
    (array.put slot content).element = array.element := rfl

/-- Marking a slot does not change what the elements are. -/
@[simp] theorem mark_element (array : SlotArray) (slot : Nat) (index : Int) :
    (array.mark slot index).element = array.element := rfl

/-- An array of elements that start with their index, with exactly the bytes that its layout
covers. -/
structure Whole (array : SlotArray) : Prop where
  /-- An element starts with its index. -/
  starts : array.element.StartsWithIndex
  /-- There are exactly the bytes that the layout covers. -/
  length : array.bytes.length = array.layout.size

/-- An array as all operations keep it. -/
structure Sound (array : SlotArray) : Prop extends Whole array where
  /-- The capacity fits its header field. -/
  small : array.capacity ≤ 2147483647
  /-- The elements have a layout that the compiler makes. -/
  element : array.element.WellFormed
  /-- The header holds the capacity. -/
  header : Slots.storedCapacity array.bytes = array.capacity
  /-- The header holds the number of elements. -/
  count : Slots.storedCount array.bytes = array.present.length
  /-- A slot has its number as its index or is empty. -/
  index : ∀ slot < array.capacity, Slots.indexAt array.element array.bytes slot = slot ∨
    Slots.indexAt array.element array.bytes slot = Slots.emptyIndex

variable {array : SlotArray} {slot other : Nat} {content : Bytes}

/-! ### Which slots hold an element -/

/-- A slot is present if it is in range and its index is not the mark of an empty one. -/
theorem isPresent_iff : array.isPresent slot = true ↔
    slot < array.capacity ∧ Slots.emptyIndex < Slots.indexAt array.element array.bytes slot := by
  unfold isPresent index?
  by_cases inside : slot < array.capacity
  · simp [inside]
  · simp [inside]

/-- A whole array has room for all its slots. -/
theorem Whole.room (h : array.Whole) : Slots.Holds array.capacity array.element array.bytes :=
  Nat.le_of_eq h.length.symm

namespace Whole

/-- The present slots are those that are found to be present one by one. -/
theorem present_eq (h : array.Whole) :
    array.present = (List.range array.capacity).filter array.isPresent := by
  rw [present, Slots.present_eq]
  apply List.filter_congr
  intro slot mem
  rw [Bool.eq_iff_iff, isPresent_iff, Slots.indexAt_eq_readWord_slot h.starts.four_le_size]
  simp [Slots.isOccupied, List.mem_range.1 mem]

/-- A slot is among the present ones exactly if it is present. -/
theorem mem_present_iff (h : array.Whole) :
    slot ∈ array.present ↔ array.isPresent slot = true := by
  rw [h.present_eq, List.mem_filter, List.mem_range]
  exact and_iff_right_of_imp fun here => (isPresent_iff.1 here).1

end Whole

namespace Sound

/-- A slot with an element has its number as its index. -/
theorem index_of_isPresent (h : array.Sound) (here : array.isPresent slot = true) :
    Slots.indexAt array.element array.bytes slot = slot := by
  obtain ⟨inside, positive⟩ := isPresent_iff.1 here
  rcases h.index slot inside with own | empty
  · exact own
  · rw [empty] at positive
    exact absurd positive (Int.lt_irrefl _)

/-- A slot without an element has index `-1`. -/
theorem index_of_not_isPresent (h : array.Sound) (inside : slot < array.capacity)
    (empty : array.isPresent slot = false) :
    Slots.indexAt array.element array.bytes slot = Slots.emptyIndex := by
  rcases h.index slot inside with own | index
  · have here : array.isPresent slot = true := by
      refine isPresent_iff.2 ⟨inside, ?_⟩
      rw [own]
      unfold Slots.emptyIndex
      omega
    simp [here] at empty
  · exact index

/-- The count of a sound array is the number of its present slots. -/
theorem count_eq (h : array.Sound) : array.count = array.present.length := by
  rw [SlotArray.count, h.count, Int.toNat_natCast]

end Sound

/-! ### Putting bytes into a slot -/

/-- A slot holds what was put into it. -/
theorem slot_put_same (room : Slots.Holds array.capacity array.element array.bytes)
    (inside : slot < array.capacity) (size : content.length = array.element.size) :
    Slots.slot array.element (array.put slot content).bytes slot = content := by
  have kept := room.setSlot inside size
  exact (Slots.slot_setCount kept _).trans (Slots.slot_setSlot_same room inside size)

/-- The other slots stay as they are. -/
theorem slot_put_other (room : Slots.Holds array.capacity array.element array.bytes)
    (inside : slot < array.capacity) (size : content.length = array.element.size)
    (apart : other ≠ slot) :
    Slots.slot array.element (array.put slot content).bytes other =
      Slots.slot array.element array.bytes other := by
  have kept := room.setSlot inside size
  exact (Slots.slot_setCount kept _).trans (Slots.slot_setSlot_other room inside size apart)

/-- Filling a slot changes no length. -/
theorem length_put (room : Slots.Holds array.capacity array.element array.bytes)
    (inside : slot < array.capacity) (size : content.length = array.element.size) :
    (array.put slot content).bytes.length = array.bytes.length := by
  have kept := room.setSlot inside size
  exact (Slots.length_setCount kept _).trans (Slots.length_setSlot room inside size)

/-- What is in the slots decides which of them hold an element. -/
theorem present_put (room : Slots.Holds array.capacity array.element array.bytes)
    (inside : slot < array.capacity) (size : content.length = array.element.size) :
    (array.put slot content).present = Slots.present array.capacity array.element
      (Slots.setSlot array.element array.bytes slot content) :=
  Slots.present_setCount (room.setSlot inside size) _

/-- Of two contents put into one slot the second counts. -/
theorem put_put {second : Bytes} (room : Slots.Holds array.capacity array.element array.bytes)
    (inside : slot < array.capacity) (size : content.length = array.element.size)
    (size' : second.length = array.element.size) :
    (array.put slot content).put slot second = array.put slot second := by
  have kept := room.setSlot inside size
  have second_kept := room.setSlot inside size'
  unfold put
  simp only [recount, Slots.recount]
  rw [Slots.setSlot_setCount kept inside size', Slots.setSlot_setSlot room inside size size',
    Slots.present_setCount second_kept, Slots.setCount_setCount second_kept]

/-- A whole array stays whole when a slot is filled. -/
theorem Whole.put (h : array.Whole) (inside : slot < array.capacity)
    (size : content.length = array.element.size) : (array.put slot content).Whole :=
  ⟨h.starts, (length_put h.room inside size).trans h.length⟩

/-- The count is right after a slot was filled. -/
theorem Whole.counted_put (h : array.Whole) (inside : slot < array.capacity)
    (size : content.length = array.element.size) :
    Slots.Counted array.capacity array.element (array.put slot content).bytes :=
  Slots.counted_recount (h.room.setSlot inside size)

/-- The count of a sound array is right. -/
theorem Sound.counted (h : array.Sound) :
    Slots.Counted array.capacity array.element array.bytes :=
  Slots.counted_of_storedCount h.room h.count

/-- Putting in what is there already changes nothing. -/
theorem Sound.put_slot (h : array.Sound) (inside : slot < array.capacity) :
    array.put slot (Slots.slot array.element array.bytes slot) = array := by
  unfold put
  rw [Slots.setSlot_slot h.room inside]
  simp only [recount, h.counted.recount_eq]

/-- Putting in an element or an empty slot keeps an array sound. -/
theorem Sound.put (h : array.Sound) (inside : slot < array.capacity)
    (size : content.length = array.element.size)
    (index : Slots.readWord content 0 = slot ∨ Slots.readWord content 0 = Slots.emptyIndex) :
    (array.put slot content).Sound := by
  have kept := h.room.setSlot inside size
  have four := h.starts.four_le_size
  refine ⟨h.toWhole.put inside size, h.small, h.element, ?_, ?_, ?_⟩
  · have header : Slots.storedCapacity (array.put slot content).bytes =
        Slots.storedCapacity array.bytes :=
      (Slots.storedCapacity_setCount kept _).trans
        (Slots.readWord_setSlot h.room inside (by decide))
    rw [header]
    exact h.header
  · rw [present_put h.room inside size]
    exact Slots.storedCount_setCount kept (Nat.le_trans (Slots.length_present_le _ _ _) h.small)
  · intro other bound
    have at_slot := @Slots.indexAt_eq_readWord_slot (array.put slot content).bytes array.element
      other four
    by_cases same : other = slot
    · subst same
      rw [slot_put_same h.room inside size] at at_slot
      rw [put_element, at_slot]
      exact index
    · rw [slot_put_other h.room inside size same, ← Slots.indexAt_eq_readWord_slot four] at at_slot
      rw [put_element, at_slot]
      exact h.index other bound

/-! ### Marking a slot -/

/-- To mark a slot is to put it back with another index at its start. -/
theorem Whole.mark_eq_put (h : array.Whole) (inside : slot < array.capacity) (index : Int) :
    array.mark slot index =
      array.put slot (Slots.writeWord (Slots.slot array.element array.bytes slot) 0 index) := by
  unfold mark SlotArray.put
  rw [Slots.setIndex_eq_setSlot h.starts.four_le_size h.room inside]

/-- A slot keeps its size when its index is written. -/
theorem Whole.length_marked (h : array.Whole) (inside : slot < array.capacity) (index : Int) :
    (Slots.writeWord (Slots.slot array.element array.bytes slot) 0 index).length =
      array.element.size :=
  Slots.length_writeWord_slot h.starts.four_le_size h.room inside

/-- The index that was written is read back as far as it fits 32 bits. -/
theorem Whole.readWord_marked_eq (h : array.Whole) (inside : slot < array.capacity) (index : Int) :
    Slots.readWord (Slots.writeWord (Slots.slot array.element array.bytes slot) 0 index) 0 =
      Bytes.toInt (.ofInt Slots.wordSize index) := by
  refine Slots.readWord_writeWord_eq ?_
  rw [Slots.length_slot h.room inside]
  have := h.starts.four_le_size
  omega

/-- An index of 32 bits that was written is read back. -/
theorem Whole.readWord_marked (h : array.Whole) (inside : slot < array.capacity) {index : Int}
    (fits : Slots.IsWord index) :
    Slots.readWord (Slots.writeWord (Slots.slot array.element array.bytes slot) 0 index) 0 =
      index := by
  rw [h.readWord_marked_eq inside, Slots.toInt_word fits]

/-- Claiming an empty slot and emptying it again changes nothing. -/
theorem Sound.mark_mark_empty (h : array.Sound) (inside : slot < array.capacity)
    (empty : array.isPresent slot = false) :
    (array.mark slot slot).mark slot Slots.emptyIndex = array := by
  have four := h.starts.four_le_size
  have claimed := h.length_marked inside slot
  have sound : (array.mark slot slot).Sound := by
    rw [h.mark_eq_put inside]
    refine h.put inside claimed (Or.inl ?_)
    exact h.readWord_marked inside
      (Slots.isWord_of_le (Nat.le_of_lt (Nat.lt_of_lt_of_le inside h.small)))
  have length : (Slots.slot array.element array.bytes slot).length = array.element.size :=
    Slots.length_slot h.room inside
  have index : Slots.readWord (Slots.slot array.element array.bytes slot) 0 = Slots.emptyIndex := by
    rw [← Slots.indexAt_eq_readWord_slot four]
    exact h.index_of_not_isPresent inside empty
  have released := sound.mark_eq_put inside Slots.emptyIndex
  rw [h.mark_eq_put inside] at released ⊢
  rw [released, put_element, slot_put_same h.room inside claimed, Slots.writeWord_writeWord (by omega),
    Slots.writeWord_of_readWord (by omega) index, put_put h.room inside claimed length,
    h.put_slot inside]

/-! ### Filling a slot -/

/-- The bytes of a slot with an element made of the given entries. -/
def contentFor (element : Layout) (slot : Nat) (flat : SortedMap String Value) :
    Except Error Bytes := do
  element.write element.blank (← entriesFor slot flat)

/-- The entries for a slot give its number as the index. -/
theorem entriesFor_eq_ok {flat given : SortedMap String Value}
    (h : entriesFor slot flat = .ok given) : ∃ value, given.get? DataType.indexField = some value ∧
      value.int? = some (.ofNat slot) := by
  unfold entriesFor at h
  split at h
  · cases h
    exact ⟨.int (.ofNat slot), by simp, rfl⟩
  · next value found =>
    split at h
    · next same =>
      cases h
      exact ⟨value, found, same⟩
    · cases h

/-- The entries for a slot are never refused for want of room. -/
theorem entriesFor_neverFull (slot : Nat) (flat : SortedMap String Value) :
    NeverFull (entriesFor slot flat) := by
  rintro e failed ⟨name, capacity, rfl⟩
  unfold entriesFor at failed
  split at failed
  · cases failed
  · split at failed <;> cases failed

/-- A slot is filled if there is one and an element can be made for it. -/
theorem writeSlot_eq_ok_iff {flat : SortedMap String Value} {after : SlotArray} :
    array.writeSlot slot flat = .ok after ↔
      slot < array.capacity ∧ ∃ content, contentFor array.element slot flat = .ok content ∧
        after = array.put slot content := by
  unfold writeSlot checkSlot contentFor
  by_cases inside : slot < array.capacity
  · simp only [inside, if_true, ok_bind, true_and, bind_eq_ok, pure_eq_ok]
    constructor
    · rintro ⟨given, checked, content, written, rfl⟩
      exact ⟨content, ⟨given, checked, written⟩, rfl⟩
    · rintro ⟨content, ⟨given, checked, written⟩, rfl⟩
      exact ⟨given, checked, content, written, rfl⟩
  · simp [inside, bind, Except.bind]

/-- In a slot that there is, nothing but the element can be refused. -/
theorem writeSlot_eq_error {flat : SortedMap String Value} {e : Error}
    (inside : slot < array.capacity) (h : array.writeSlot slot flat = .error e) :
    contentFor array.element slot flat = .error e := by
  cases made : contentFor array.element slot flat with
  | ok content =>
    have written := writeSlot_eq_ok_iff.2 ⟨inside, content, made, rfl⟩
    rw [written] at h
    cases h
  | error other =>
    unfold contentFor at made
    unfold writeSlot checkSlot at h
    rw [if_pos inside, ok_bind] at h
    rcases bind_eq_error.1 made with first | ⟨given, checked, second⟩
    · rw [first, error_bind] at h
      cases h
      rfl
    · rw [checked, ok_bind, second, error_bind] at h
      cases h
      rfl

/-- Neither is the content for a slot. -/
theorem contentFor_neverFull (element : Layout) (slot : Nat) (flat : SortedMap String Value) :
    NeverFull (contentFor element slot flat) :=
  .bind (entriesFor_neverFull slot flat) fun _ => Layout.write_neverFull element _

/-- An element has the size of its layout. -/
theorem length_contentFor {element : Layout} {flat : SortedMap String Value}
    (wellFormed : element.WellFormed) (made : contentFor element slot flat = .ok content) :
    content.length = element.size := by
  obtain ⟨given, -, written⟩ := bind_eq_ok.1 made
  exact Layout.length_write (Layout.length_blank wellFormed) written

/-- The index of an element is the number of its slot. -/
theorem readWord_contentFor {element : Layout} {flat : SortedMap String Value}
    (wellFormed : element.WellFormed) (starts : element.StartsWithIndex)
    (small : slot < 2 ^ 63) (made : contentFor element slot flat = .ok content) :
    Slots.readWord content 0 = slot := by
  obtain ⟨given, checked, written⟩ := bind_eq_ok.1 made
  obtain ⟨index, found, number⟩ := entriesFor_eq_ok checked
  have value : (Int64.ofNat slot).toInt = slot := Int64.toInt_ofNat_of_lt small
  have index := Layout.readWord_of_write starts (Layout.length_blank wellFormed) written found number
  exact index.trans value

/-! ### Emptying a slot -/

/-- A present slot is removed by marking it as empty. -/
theorem remove_of_isPresent (here : array.isPresent slot = true) :
    array.remove slot = .ok (true, array.mark slot Slots.emptyIndex) := by
  obtain ⟨inside, -⟩ := isPresent_iff.1 here
  unfold remove checkSlot
  rw [if_pos inside, ok_bind, if_pos here]
  rfl

/-- Removing an empty slot changes nothing. -/
theorem remove_of_not_isPresent (inside : slot < array.capacity)
    (empty : array.isPresent slot = false) : array.remove slot = .ok (false, array) := by
  unfold remove checkSlot
  rw [if_pos inside, ok_bind, empty]
  rfl

/-- A slot out of range is not removed. -/
theorem remove_of_le (beyond : array.capacity ≤ slot) :
    array.remove slot = .error (.slotOutOfRange slot array.capacity) := by
  unfold remove checkSlot
  rw [if_neg (Nat.not_lt.2 beyond)]
  rfl

/-- A slot that is emptied is marked as empty if it held an element, and else nothing is done. -/
theorem remove_eq_ok {here : Bool} {after : SlotArray}
    (removed : array.remove slot = .ok (here, after)) : slot < array.capacity ∧
      ((array.isPresent slot = true ∧ after = array.mark slot Slots.emptyIndex) ∨
        (array.isPresent slot = false ∧ after = array)) := by
  by_cases inside : slot < array.capacity
  · refine ⟨inside, ?_⟩
    cases present : array.isPresent slot with
    | true =>
      cases (remove_of_isPresent present).symm.trans removed
      exact Or.inl ⟨rfl, rfl⟩
    | false =>
      cases (remove_of_not_isPresent inside present).symm.trans removed
      exact Or.inr ⟨rfl, rfl⟩
  · cases (remove_of_le (Nat.le_of_not_lt inside)).symm.trans removed

/-- A slot that was claimed can be released again, as if it had not been claimed. -/
theorem Sound.remove_mark (h : array.Sound) (inside : slot < array.capacity)
    (empty : array.isPresent slot = false) :
    (array.mark slot slot).remove slot = .ok (true, array) := by
  have word := Slots.isWord_of_le (Nat.le_of_lt (Nat.lt_of_lt_of_le inside h.small))
  have index : Slots.indexAt array.element (array.mark slot slot).bytes slot = slot := by
    rw [h.mark_eq_put inside, Slots.indexAt_eq_readWord_slot h.starts.four_le_size,
      slot_put_same h.room inside (h.length_marked inside slot), h.readWord_marked inside word]
  have here : (array.mark slot slot).isPresent slot = true := by
    refine isPresent_iff.2 ⟨inside, ?_⟩
    rw [mark_element, index, Slots.emptyIndex]
    omega
  rw [remove_of_isPresent here, h.mark_mark_empty inside empty]

/-! ### Free slots -/

/-- Every slot holds an element. -/
def Full (array : SlotArray) : Prop := ∀ slot < array.capacity, array.isPresent slot = true

/-- A free slot is in range and empty. -/
theorem freeSlot?_eq_some (h : array.freeSlot? = some slot) :
    slot < array.capacity ∧ array.isPresent slot = false := by
  unfold freeSlot? at h
  split at h
  · next behind =>
    cases h
    exact ⟨behind.1, by simpa using behind.2⟩
  · have first := List.find?_some h
    have bound := List.mem_of_find?_eq_some h
    exact ⟨List.mem_range.1 bound, by simpa using first⟩

/-- The slot whose number is the count is claimed if it is empty, and else the first that is. -/
theorem freeSlot?_cases (free : array.freeSlot? = some slot) :
    (slot = array.count ∧ array.isPresent array.count = false) ∨
    ((array.capacity ≤ array.count ∨ array.isPresent array.count = true) ∧
      ∀ other < slot, array.isPresent other = true) := by
  unfold freeSlot? at free
  split at free
  · next behind =>
    cases free
    exact Or.inl ⟨rfl, by simpa using behind.2⟩
  · next taken =>
    refine Or.inr ⟨?_, ?_⟩
    · by_cases inside : array.count < array.capacity
      · exact Or.inr (by simpa [inside] using taken)
      · exact Or.inl (Nat.le_of_not_lt inside)
    · obtain ⟨-, -, first⟩ := List.find?_range_eq_some.1 free
      intro other before
      simpa using first other before

/-- The search for a free slot fails exactly if there is none. -/
theorem freeSlot?_eq_none_iff : array.freeSlot? = none ↔ array.Full := by
  unfold freeSlot? Full
  split
  · next behind =>
    simp only [reduceCtorEq, false_iff]
    intro full
    simp [full _ behind.1] at behind
  · simp

/-- A full array has no next slot. -/
theorem nextSlot_of_full (full : array.Full) :
    array.nextSlot = .error (.capacityExceeded array.typeName array.capacity) := by
  unfold nextSlot
  rw [freeSlot?_eq_none_iff.2 full]

/-- The next slot is the free one, which is marked with its number. -/
theorem nextSlot_of_freeSlot (free : array.freeSlot? = some slot) :
    array.nextSlot = .ok (slot, array.mark slot slot) := by
  unfold nextSlot
  rw [free]

/-- Some slot is the next one exactly if it is the free one. -/
theorem nextSlot_eq_ok_iff {after : SlotArray} : array.nextSlot = .ok (slot, after) ↔
    array.freeSlot? = some slot ∧ after = array.mark slot slot := by
  unfold nextSlot
  cases array.freeSlot? with
  | none => simp
  | some free =>
    simp only [Except.ok.injEq, Prod.mk.injEq, Option.some.injEq]
    constructor
    · rintro ⟨rfl, rfl⟩
      exact ⟨rfl, rfl⟩
    · rintro ⟨rfl, rfl⟩
      exact ⟨rfl, rfl⟩

/-- A slot is claimed exactly if one is free. -/
theorem nextSlot_full_iff : (∃ e, array.nextSlot = .error e ∧ e.IsFull) ↔ array.Full := by
  constructor
  · rintro ⟨e, failed, -⟩
    cases free : array.freeSlot? with
    | none => exact freeSlot?_eq_none_iff.1 free
    | some slot =>
      rw [nextSlot_of_freeSlot free] at failed
      cases failed
  · intro full
    exact ⟨_, nextSlot_of_full full, _, _, rfl⟩

/-! ### Pushing an element -/

/-- Nothing is pushed onto a full array, which stays as it is. -/
theorem push_of_full (full : array.Full) (tree : Value) :
    array.push tree = (.error (.capacityExceeded array.typeName array.capacity), array) := by
  unfold push
  rw [nextSlot_of_full full]

/-- An element that can be made is put into the first free slot. -/
theorem Sound.push_of_ok (h : array.Sound) (free : array.freeSlot? = some slot) {tree : Value}
    (made : contentFor array.element slot tree.flatten = .ok content) :
    array.push tree = (.ok slot, array.put slot content) := by
  obtain ⟨inside, -⟩ := freeSlot?_eq_some free
  have claimed := h.length_marked inside slot
  have written : (array.mark slot slot).insert slot tree =
      .ok ((array.mark slot slot).put slot content) :=
    writeSlot_eq_ok_iff.2 ⟨inside, content, made, rfl⟩
  unfold push
  rw [nextSlot_of_freeSlot free]
  simp only [written]
  rw [h.mark_eq_put inside, put_put h.room inside claimed (length_contentFor h.element made)]

/-- A tree that is refused leaves no trace: the slot that was claimed for it is empty again. -/
theorem Sound.push_of_error (h : array.Sound) (free : array.freeSlot? = some slot) {tree : Value}
    {e : Error} (refused : contentFor array.element slot tree.flatten = .error e) :
    array.push tree = (.error e, array) := by
  obtain ⟨inside, empty⟩ := freeSlot?_eq_some free
  have failed : (array.mark slot slot).insert slot tree = .error e := by
    cases written : (array.mark slot slot).insert slot tree with
    | ok after =>
      obtain ⟨-, content, made, -⟩ := writeSlot_eq_ok_iff.1 written
      rw [mark_element, refused] at made
      cases made
    | error other =>
      have same := @writeSlot_eq_error (array.mark slot slot) slot _ other inside written
      rw [mark_element, refused] at same
      cases same
      rfl
  unfold push
  rw [nextSlot_of_freeSlot free]
  simp only [failed, h.remove_mark inside empty]

/-- An element is pushed unless it is refused or no slot is free. -/
theorem Sound.push_full_iff (h : array.Sound) (tree : Value) :
    (∃ e, (array.push tree).1 = .error e ∧ e.IsFull) ↔ array.Full := by
  constructor
  · rintro ⟨e, failed, isFull⟩
    cases free : array.freeSlot? with
    | none => exact freeSlot?_eq_none_iff.1 free
    | some slot =>
      cases made : contentFor array.element slot tree.flatten with
      | ok content =>
        rw [h.push_of_ok free made] at failed
        cases failed
      | error other =>
        rw [h.push_of_error free made] at failed
        cases failed
        exact absurd isFull (contentFor_neverFull _ _ _ e made)
  · intro full
    exact ⟨_, by rw [push_of_full full], _, _, rfl⟩

/-! ### Emptying an array -/

/-- An array that is initialised is blank. -/
theorem Whole.init_bytes (h : array.Whole) : array.init.bytes = array.layout.blank := by
  have all : array.bytes.drop array.layout.size = [] :=
    List.drop_of_length_le (Nat.le_of_eq h.length)
  change array.layout.blank ++ array.bytes.drop array.layout.size = _
  rw [all, List.append_nil]

/-- The slots of a blank array are empty. -/
theorem indexAt_of_blank (wellFormed : array.layout.WellFormed)
    (blank : array.bytes = array.layout.blank) (inside : slot < array.capacity) :
    Slots.indexAt array.element array.bytes slot = Slots.emptyIndex := by
  obtain ⟨starts, element⟩ := wellFormed
  rw [Slots.indexAt_eq_readWord_slot starts.four_le_size, blank, layout,
    Layout.slot_blank ⟨starts, element⟩ inside, Layout.readWord_blankSlot element starts]

/-- The array without elements and with nothing left in its slots is sound. -/
theorem sound_of_blank (small : array.capacity ≤ 2147483647) (wellFormed : array.layout.WellFormed)
    (blank : array.bytes = array.layout.blank) : array.Sound := by
  have empty := fun slot => @indexAt_of_blank array slot wellFormed blank
  obtain ⟨starts, element⟩ := wellFormed
  have none : array.present = [] := by
    rw [present, blank]
    exact Layout.present_blank ⟨starts, element⟩
  refine ⟨⟨starts, ?_⟩, small, element, ?_, ?_, fun slot inside => Or.inr (empty slot inside)⟩
  · rw [blank]
    exact Layout.length_blank ⟨starts, element⟩
  · rw [blank]
    exact Layout.storedCapacity_blank small
  · rw [none, blank]
    exact Layout.storedCount_blank

/-- The layout of a sound array is well-formed. -/
theorem Sound.wellFormed (h : array.Sound) : array.layout.WellFormed := ⟨h.starts, h.element⟩

/-- A sound array stays sound when it is initialised. -/
theorem Sound.init (h : array.Sound) : array.init.Sound :=
  sound_of_blank h.small h.wellFormed h.init_bytes

/-- The slots of an array, all of them marked as empty. -/
def emptied (array : SlotArray) : List Bytes :=
  (List.range array.capacity).map fun slot =>
    Slots.writeWord (Slots.slot array.element array.bytes slot) 0 Slots.emptyIndex

/-- The cleared array before its count is corrected. -/
def gathered (array : SlotArray) : Bytes :=
  array.bytes.take Layout.headerSize ++ array.emptied.flatten ++ array.bytes.drop array.layout.size

/-- Clearing an array marks all slots as empty and sets the count to 0. -/
theorem clear_bytes (array : SlotArray) :
    array.clear.bytes = Slots.setCount array.gathered 0 := by
  unfold clear gathered emptied
  rw [Slots.all_eq_map, List.map_map]
  rfl

/-- As many slots are emptied as there are. -/
theorem length_emptied (array : SlotArray) : array.emptied.length = array.capacity := by
  rw [emptied, List.length_map, List.length_range]

namespace Whole

/-- A slot keeps its size when it is emptied. -/
theorem length_of_mem_emptied (h : array.Whole) :
    ∀ part ∈ array.emptied, part.length = array.element.size := by
  intro part mem
  obtain ⟨slot, bound, rfl⟩ := List.mem_map.1 mem
  exact h.length_marked (List.mem_range.1 bound) _

/-- The header is in front of the slots. -/
theorem length_front (h : array.Whole) :
    (array.bytes.take Layout.headerSize).length = Layout.headerSize := by
  rw [List.length_take]
  exact Nat.min_eq_left h.room.header

/-- There stays room for all slots when they are emptied. -/
theorem holds_gathered (h : array.Whole) :
    Slots.Holds array.capacity array.element array.gathered := by
  have room := @Slots.holds_of_parts array.element _ (array.bytes.drop array.layout.size) _
    h.length_front h.length_of_mem_emptied
  rw [length_emptied] at room
  exact room

/-- A slot of a cleared array is marked as empty and else as it was. -/
theorem slot_clear (h : array.Whole) (inside : slot < array.capacity) :
    Slots.slot array.element array.clear.bytes slot =
      Slots.writeWord (Slots.slot array.element array.bytes slot) 0 Slots.emptyIndex := by
  have bound : slot < array.emptied.length := by rwa [length_emptied]
  have found := @Slots.slot_of_parts array.element slot _ (array.bytes.drop array.layout.size) _
    h.length_front h.length_of_mem_emptied bound
  rw [clear_bytes, Slots.slot_setCount h.holds_gathered]
  refine found.trans ?_
  simp only [emptied, List.getElem_map, List.getElem_range]

/-- After clearing each slot is marked as empty. -/
theorem index_clear (h : array.Whole) (inside : slot < array.capacity) :
    Slots.indexAt array.element array.clear.bytes slot = Slots.emptyIndex := by
  rw [Slots.indexAt_eq_readWord_slot h.starts.four_le_size, h.slot_clear inside,
    h.readWord_marked inside Slots.isWord_emptyIndex]

/-- Clearing changes no length. -/
theorem length_clear (h : array.Whole) : array.clear.bytes.length = array.bytes.length := by
  have slots := Bytes.length_flatten h.length_of_mem_emptied
  have all := h.length
  rw [clear_bytes, Slots.length_setCount h.holds_gathered, gathered, List.length_append,
    List.length_append, h.length_front, slots, length_emptied, List.length_drop, all, Nat.sub_self]
  rfl

/-- Clearing does not change the capacity. -/
theorem slice_clear_capacity (h : array.Whole) :
    array.clear.bytes.slice 0 4 = array.bytes.slice 0 4 := by
  have front : Bytes.slice (array.bytes.take Layout.headerSize) 0 4 = array.bytes.slice 0 4 := by
    rw [← Bytes.slice_eq_take, Bytes.slice_slice (by decide)]
  have room := h.holds_gathered.header
  rw [clear_bytes]
  refine (Slots.slice_writeWord_apart (by omega) (Or.inl (by decide))).trans ?_
  rw [gathered, List.append_assoc, Bytes.slice_append_left, front]
  rw [h.length_front]
  decide

/-- After clearing no slot is present. -/
theorem present_clear (h : array.Whole) : array.clear.present = [] := by
  rw [present, Slots.present_eq, List.filter_eq_nil_iff]
  intro slot mem
  have index := h.index_clear (List.mem_range.1 mem)
  rw [Slots.indexAt_eq_readWord_slot h.starts.four_le_size] at index
  rw [show array.clear.element = array.element from rfl]
  simp [Slots.isOccupied, index]

/-- After clearing the count is right. -/
theorem counted_clear (h : array.Whole) :
    Slots.Counted array.capacity array.element array.clear.bytes := by
  have none : Slots.present array.capacity array.element array.clear.bytes = [] := h.present_clear
  have room := h.holds_gathered.header
  rw [Slots.Counted, none, clear_bytes]
  exact Bytes.slice_splice (by omega) (Slots.length_word _)

/-- A whole array stays whole when it is cleared. -/
theorem clear (h : array.Whole) : array.clear.Whole := ⟨h.starts, h.length_clear.trans h.length⟩

end Whole

namespace Sound

/-- A sound array stays sound when it is cleared. -/
theorem clear (h : array.Sound) : array.clear.Sound := by
  refine ⟨h.toWhole.clear, h.small, h.element, ?_, ?_,
    fun slot inside => Or.inr (h.index_clear inside)⟩
  · exact (congrArg Bytes.toInt h.slice_clear_capacity).trans h.header
  · rw [h.present_clear, clear_bytes, Slots.storedCount_setCount h.holds_gathered (by decide)]
    rfl

/-- The count of a sound array needs no correction. -/
theorem reconcile_eq (h : array.Sound) : array.reconcile = (none, array) := by
  unfold reconcile
  simp only [h.count, if_true]

end Sound

/-! ### Runs -/

/-- Something that is done to an array. -/
inductive Operation where
  | insert (slot : Nat) (tree : Value)
  | remove (slot : Nat)
  | push (tree : Value)
  | nextSlot
  | clear
  | init
  | reconcile

/-- The array after an operation, and the slot that the operation was about if it was about one, or
the error with which it failed. -/
def perform (array : SlotArray) : Operation → Except Error (Option Nat) × SlotArray
  | .insert slot tree =>
    match array.insert slot tree with
    | .ok after => (.ok (some slot), after)
    | .error e => (.error e, array)
  | .remove slot =>
    match array.remove slot with
    | .ok (_, after) => (.ok (some slot), after)
    | .error e => (.error e, array)
  | .push tree =>
    match array.push tree with
    | (.ok slot, after) => (.ok (some slot), after)
    | (.error e, after) => (.error e, after)
  | .nextSlot =>
    match array.nextSlot with
    | .ok (slot, after) => (.ok (some slot), after)
    | .error e => (.error e, array)
  | .clear => (.ok none, array.clear)
  | .init => (.ok none, array.init)
  | .reconcile => (.ok none, array.reconcile.2)

/-- The array after operations one behind the other, whether they fail or not. -/
def run (array : SlotArray) (operations : List Operation) : SlotArray :=
  operations.foldl (fun array operation => (array.perform operation).2) array

/-- What insertions, removals and claims of slots keep, and the changes of the array as a whole, every
operation keeps: to push is to claim a slot and then to fill it or to empty it again. -/
theorem perform_induction {motive : SlotArray → Prop}
    (insert : ∀ {array slot tree after}, motive array → array.insert slot tree = .ok after →
      motive after)
    (remove : ∀ {array slot here after}, motive array → array.remove slot = .ok (here, after) →
      motive after)
    (claim : ∀ {array slot after}, motive array → array.nextSlot = .ok (slot, after) →
      motive after)
    (clear : ∀ {array}, motive array → motive array.clear)
    (init : ∀ {array}, motive array → motive array.init)
    (reconcile : ∀ {array}, motive array → motive array.reconcile.2)
    (start : motive array) (operation : Operation) : motive (array.perform operation).2 := by
  cases operation with
  | insert slot tree =>
    simp only [perform]
    split
    · next done => exact insert start done
    · exact start
  | remove slot =>
    simp only [perform]
    split
    · next done => exact remove start done
    · exact start
  | push tree =>
    have pushed : motive (array.push tree).2 := by
      unfold push
      split
      · exact start
      · next claimed =>
        have claimed := claim start claimed
        split
        · next done => exact insert claimed done
        · split
          · next released => exact remove claimed released
          · exact claimed
    simp only [perform]
    split
    · next done => exact (congrArg (fun result => motive result.2) done).mp pushed
    · next done => exact (congrArg (fun result => motive result.2) done).mp pushed
  | nextSlot =>
    simp only [perform]
    split
    · next done => exact claim start done
    · exact start
  | clear => exact clear start
  | init => exact init start
  | reconcile => exact reconcile start

/-- What an operation can do to a sound array: nothing if it fails, put an element or an empty slot
into one slot, or change the array as a whole. -/
theorem Sound.perform_cases (h : array.Sound) (operation : Operation) :
    (∃ e, array.perform operation = (.error e, array)) ∨
    (∃ slot content, slot < array.capacity ∧ content.length = array.element.size ∧
      (Slots.readWord content 0 = slot ∨ Slots.readWord content 0 = Slots.emptyIndex) ∧
      array.perform operation = (.ok (some slot), array.put slot content)) ∨
    array.perform operation = (.ok none, array.clear) ∨
    array.perform operation = (.ok none, array.init) ∨
    array.perform operation = (.ok none, array) := by
  have word : ∀ {slot}, slot < array.capacity → slot ≤ 2147483647 := fun inside =>
    Nat.le_of_lt (Nat.lt_of_lt_of_le inside h.small)
  have filled : ∀ {slot : Nat} {tree : Value} {content : Bytes}, slot < array.capacity →
      contentFor array.element slot tree.flatten = .ok content →
        content.length = array.element.size ∧ Slots.readWord content 0 = slot :=
    fun inside made => ⟨length_contentFor h.element made,
      readWord_contentFor h.element h.starts (by have := word inside; omega) made⟩
  cases operation with
  | insert slot tree =>
    simp only [perform]
    cases written : array.insert slot tree with
    | error e => exact Or.inl ⟨e, rfl⟩
    | ok after =>
      obtain ⟨inside, content, made, rfl⟩ := writeSlot_eq_ok_iff.1 written
      obtain ⟨size, index⟩ := filled inside made
      exact Or.inr (Or.inl ⟨slot, content, inside, size, Or.inl index, rfl⟩)
  | remove slot =>
    simp only [perform]
    by_cases inside : slot < array.capacity
    · refine Or.inr (Or.inl ?_)
      cases here : array.isPresent slot with
      | true =>
        rw [remove_of_isPresent here, h.mark_eq_put inside]
        exact ⟨slot, _, inside, h.length_marked inside Slots.emptyIndex,
          Or.inr (h.readWord_marked inside Slots.isWord_emptyIndex), rfl⟩
      | false =>
        have index := h.index_of_not_isPresent inside here
        rw [Slots.indexAt_eq_readWord_slot h.starts.four_le_size] at index
        refine ⟨slot, _, inside, Slots.length_slot h.room inside, Or.inr index, ?_⟩
        rw [remove_of_not_isPresent inside here, h.put_slot inside]
    · rw [remove_of_le (Nat.le_of_not_lt inside)]
      exact Or.inl ⟨_, rfl⟩
  | push tree =>
    simp only [perform]
    cases free : array.freeSlot? with
    | none =>
      rw [push_of_full (freeSlot?_eq_none_iff.1 free)]
      exact Or.inl ⟨_, rfl⟩
    | some slot =>
      obtain ⟨inside, -⟩ := freeSlot?_eq_some free
      cases made : contentFor array.element slot tree.flatten with
      | error e =>
        rw [h.push_of_error free made]
        exact Or.inl ⟨e, rfl⟩
      | ok content =>
        rw [h.push_of_ok free made]
        obtain ⟨size, index⟩ := filled inside made
        exact Or.inr (Or.inl ⟨slot, content, inside, size, Or.inl index, rfl⟩)
  | nextSlot =>
    simp only [perform]
    cases free : array.freeSlot? with
    | none =>
      rw [nextSlot_of_full (freeSlot?_eq_none_iff.1 free)]
      exact Or.inl ⟨_, rfl⟩
    | some slot =>
      obtain ⟨inside, -⟩ := freeSlot?_eq_some free
      rw [nextSlot_of_freeSlot free]
      refine Or.inr (Or.inl ⟨slot, _, inside, h.length_marked inside slot,
        Or.inl (h.readWord_marked inside (Slots.isWord_of_le (word inside))), ?_⟩)
      rw [← h.mark_eq_put inside]
  | clear => exact Or.inr (Or.inr (Or.inl rfl))
  | init => exact Or.inr (Or.inr (Or.inr (Or.inl rfl)))
  | reconcile =>
    refine Or.inr (Or.inr (Or.inr (Or.inr ?_)))
    simp only [perform, h.reconcile_eq]

/-- An operation keeps an array sound, whether it fails or not. -/
theorem Sound.perform (h : array.Sound) (operation : Operation) :
    (array.perform operation).2.Sound ∧ (array.perform operation).2.layout = array.layout := by
  rcases h.perform_cases operation with ⟨e, same⟩ | ⟨slot, content, inside, size, index, same⟩ |
    same | same | same
  · rw [same]
    exact ⟨h, rfl⟩
  · rw [same]
    exact ⟨h.put inside size index, rfl⟩
  · rw [same]
    exact ⟨h.clear, rfl⟩
  · rw [same]
    exact ⟨h.init, rfl⟩
  · rw [same]
    exact ⟨h, rfl⟩

/-- A run keeps an array sound, with the slots that it had. -/
theorem Sound.run {array : SlotArray} (h : array.Sound) : ∀ operations : List Operation,
    (array.run operations).Sound ∧ (array.run operations).layout = array.layout
  | [] => ⟨h, rfl⟩
  | operation :: rest => by
    obtain ⟨sound, same⟩ := h.perform operation
    obtain ⟨last, kept⟩ := sound.run rest
    exact ⟨last, kept.trans same⟩

/-- An operation that fails leaves the array as it was. -/
theorem Sound.perform_error (h : array.Sound) {operation : Operation} {e : Error}
    {after : SlotArray} (failed : array.perform operation = (.error e, after)) : after = array := by
  rcases h.perform_cases operation with ⟨_, same⟩ | ⟨_, _, -, -, -, same⟩ | same | same | same
  all_goals rw [same] at failed; cases failed
  rfl

/-- An operation on one slot leaves all others as they were. -/
theorem Sound.perform_apart (h : array.Sound) {operation : Operation} {after : SlotArray}
    (done : array.perform operation = (.ok (some slot), after)) (apart : other ≠ slot) :
    Slots.slot array.element after.bytes other = Slots.slot array.element array.bytes other := by
  rcases h.perform_cases operation with ⟨_, same⟩ | ⟨_, _, inside, size, -, same⟩ |
    same | same | same
  all_goals rw [same] at done; cases done
  exact slot_put_other h.room inside size apart

/-! ### Allocated arrays -/

/-- Only array types have array layouts, with the capacity that the parameters give them. -/
theorem capacity_of_layout {compiler : Compiler} {type : DataType} {params : Params}
    {name : String} {capacity : Nat} {element : Layout}
    (compiled : compiler.layout type params = .ok (.array name capacity element)) :
    ∃ value, params.get? DataType.capacityParameter = some value ∧
      capacity = value.toInt.toNat ∧ capacity ≤ compiler.maxParameter := by
  obtain ⟨required, checked, placed⟩ := Compiler.layout_eq_ok_iff.1 compiled
  cases type with
  | scalar kind => simp [Layout.place] at placed
  | enum type => simp [Layout.place] at placed
  | record name fields =>
    obtain ⟨parts, -, -, same⟩ := Layout.place_record_eq_ok_iff.1 placed
    cases same
  | array name elementType =>
    obtain ⟨found, item, bounded, -, same⟩ := Layout.place_array_eq_ok_iff.1 placed
    cases same
    obtain ⟨value, held, -, rfl⟩ := Layout.capacityOf_eq_ok_iff.1 bounded
    obtain ⟨other, outside, inside, -, most⟩ := Params.requiredBy_ok checked _
      (DataType.capacity_mem_parameterNames name elementType)
    cases held.symm.trans inside
    exact ⟨value, outside, rfl, by omega⟩

/-- An allocated array is blank and has the capacity that was asked for, taken as a signed number. -/
theorem blank_of_allocate {compiler : Compiler} {type : DataType} {capacity : Nat}
    {itemParams : Params} {start : SlotArray} (buildable : type.Buildable)
    (allocated : allocate compiler type capacity itemParams = .ok start) :
    start.layout.WellFormed ∧ start.bytes = start.layout.blank ∧
      start.capacity = (Int64.ofNat capacity).toInt.toNat ∧
      start.capacity ≤ compiler.maxParameter := by
  simp only [allocate, bind_eq_ok] at allocated
  obtain ⟨layout, compiled, opened⟩ := allocated
  have wellFormed := Layout.wellFormed_of_layout buildable compiled
  unfold ofBytes Blob.allocate at opened
  simp only at opened
  split at opened
  · next name found element =>
    obtain ⟨value, given, rfl, most⟩ := capacity_of_layout compiled
    rw [Params.get?_insert, if_pos rfl, Option.some.injEq] at given
    rw [if_neg (by rw [Layout.length_blank wellFormed]; exact Nat.lt_irrefl _)] at opened
    cases opened
    exact ⟨wellFormed, rfl, by rw [given], most⟩
  · cases opened

/-- An allocated array has as many slots as it was asked for, all of them empty. -/
theorem sound_of_allocate {compiler : Compiler} {type : DataType} {capacity : Nat}
    {itemParams : Params} {start : SlotArray} (buildable : type.Buildable)
    (small : capacity ≤ 2147483647)
    (allocated : allocate compiler type capacity itemParams = .ok start) :
    start.Sound ∧ start.capacity = capacity ∧ capacity ≤ compiler.maxParameter ∧
      start.bytes = start.layout.blank := by
  obtain ⟨wellFormed, blank, same, most⟩ := blank_of_allocate buildable allocated
  rw [Int64.toInt_ofNat_of_lt (by omega), Int.toNat_natCast] at same
  exact ⟨sound_of_blank (by omega) wellFormed blank, same, by omega, blank⟩

/-- Two particles without values. -/
def twoParticles : SlotArray :=
  ⟨"Particles", 2, Scene.particleLayout,
    (Layout.array "Particles" 2 Scene.particleLayout).blank, none⟩

end DeviceBlob.SlotArray
