import DeviceBlob.Proofs.SlotArray

/-!
# Arrays without gaps

The items of a linked list are claimed in order, so the slots with an element are always the first
ones: the array is `FilledTo` a number.  The next slot is then the one behind the last element, or
there is none (`FilledTo.freeSlot?_eq`), and whatever is put there keeps the array filled to that
number or to the next one (`FilledTo.put`).

An array may have more slots than a word has numbers.  The count is `0` once there are more elements
than the header can hold (`FilledTo.count_eq`); as long as it can, the array is `Packed`.
-/

namespace DeviceBlob.SlotArray

variable {array : SlotArray} {slot other : Nat} {content : Bytes}

/-! ### What is put into a slot -/

/-- A slot has the index that is put into it. -/
theorem Whole.indexAt_put (h : array.Whole) (inside : slot < array.capacity)
    (size : content.length = array.element.size) (other : Nat) :
    Slots.indexAt array.element (array.put slot content).bytes other =
      if other = slot then Slots.readWord content 0
      else Slots.indexAt array.element array.bytes other := by
  have four := h.starts.four_le_size
  rw [Slots.indexAt_eq_readWord_slot four]
  by_cases same : other = slot
  · rw [if_pos same, same, slot_put_same h.room inside size]
  · rw [if_neg same, slot_put_other h.room inside size same, Slots.indexAt_eq_readWord_slot four]

/-- A slot holds an element or not by what is put into it. -/
theorem Whole.isPresent_put (h : array.Whole) (inside : slot < array.capacity)
    (size : content.length = array.element.size) (other : Nat) :
    (array.put slot content).isPresent other =
      if other = slot then decide (Slots.emptyIndex < Slots.readWord content 0)
      else array.isPresent other := by
  rw [Bool.eq_iff_iff, isPresent_iff, put_element, put_capacity, h.indexAt_put inside size]
  by_cases same : other = slot
  · subst same
    rw [if_pos rfl, if_pos rfl, decide_eq_true_eq]
    exact and_iff_right inside
  · rw [if_neg same, if_neg same, isPresent_iff]

/-- Where the first slots hold elements and no others, they are listed by their numbers. -/
theorem Whole.present_of_isPresent (h : array.Whole) {n : Nat} (small : n ≤ array.capacity)
    (first : ∀ slot, array.isPresent slot = true ↔ slot < n) : array.present = List.range n := by
  rw [h.present_eq]
  exact Slots.filter_range_eq small fun slot _ => first slot

/-- A slot may be written without counting again if its index stays. -/
theorem Whole.setSlot_eq_put (h : array.Whole)
    (counted : Slots.Counted array.capacity array.element array.bytes)
    (inside : slot < array.capacity) (size : content.length = array.element.size)
    (index : Slots.readWord content 0 = Slots.indexAt array.element array.bytes slot) :
    { array with bytes := Slots.setSlot array.element array.bytes slot content } =
      array.put slot content := by
  rw [Slots.indexAt_eq_readWord_slot h.starts.four_le_size] at index
  have kept := counted.setSlot h.room inside size index
  unfold SlotArray.put
  simp only [recount, kept.recount_eq]

/-! ### Arrays that are filled from the front -/

/-- The first slots of an array hold their own numbers and no other slot holds an element. -/
structure FilledTo (array : SlotArray) (n : Nat) : Prop where
  /-- There are as many slots. -/
  inside : n ≤ array.capacity
  /-- A slot whose number no word can hold never holds an element. -/
  numbers : n ≤ 2147483648
  /-- The first slots hold their own numbers. -/
  own : ∀ slot < n, Slots.indexAt array.element array.bytes slot = slot
  /-- The others hold no element. -/
  others : ∀ slot < array.capacity, n ≤ slot →
    Slots.indexAt array.element array.bytes slot ≤ Slots.emptyIndex

namespace FilledTo

variable {n : Nat}

/-- The present slots are those in front. -/
theorem isPresent_iff (filled : array.FilledTo n) : array.isPresent slot = true ↔ slot < n := by
  rw [SlotArray.isPresent_iff]
  constructor
  · rintro ⟨inside, positive⟩
    apply Nat.lt_of_not_le
    intro beyond
    have := filled.others slot inside beyond
    omega
  · intro below
    refine ⟨Nat.lt_of_lt_of_le below filled.inside, ?_⟩
    rw [filled.own slot below, Slots.emptyIndex]
    omega

/-- The present slots are listed from the first on. -/
theorem present_eq (filled : array.FilledTo n) (h : array.Whole) : array.present = List.range n :=
  h.present_of_isPresent filled.inside fun _ => filled.isPresent_iff

/-- The count is right as long as the header can hold it, and `0` when it cannot. -/
theorem count_eq (filled : array.FilledTo n) (h : array.Whole)
    (counted : Slots.Counted array.capacity array.element array.bytes) :
    array.count = if n < 2147483648 then n else 0 := by
  have stored : Slots.storedCount array.bytes = Bytes.toInt (.ofInt Slots.wordSize n) := by
    have same : Slots.present array.capacity array.element array.bytes = List.range n :=
      filled.present_eq h
    rw [Slots.Counted, same, List.length_range] at counted
    exact congrArg Bytes.toInt counted
  rw [count, stored, Slots.toInt_word_of_le filled.numbers]
  split
  · exact Int.toNat_natCast n
  · rfl

/-- The next slot is the one behind the last element, whether the header can hold its number or
not. -/
theorem freeSlot?_eq (filled : array.FilledTo n) (h : array.Whole)
    (counted : Slots.Counted array.capacity array.element array.bytes) :
    array.freeSlot? = if n < array.capacity then some n else none := by
  cases free : array.freeSlot? with
  | none =>
    have full := freeSlot?_eq_none_iff.1 free
    rw [if_neg]
    exact fun room => absurd (filled.isPresent_iff.1 (full n room)) (Nat.lt_irrefl n)
  | some slot =>
    obtain ⟨inside, empty⟩ := freeSlot?_eq_some free
    have behind : n ≤ slot := by
      rw [← Nat.not_lt, ← filled.isPresent_iff, empty]
      exact Bool.false_ne_true
    have first : slot ≤ n := by
      rcases freeSlot?_cases free with ⟨rfl, -⟩ | ⟨-, front⟩
      · rw [filled.count_eq h counted]
        split <;> omega
      · exact Nat.le_of_not_lt fun beyond =>
          absurd (filled.isPresent_iff.1 (front n beyond)) (Nat.lt_irrefl n)
    rw [if_pos (Nat.lt_of_le_of_lt behind inside), Nat.le_antisymm first behind]

/-- What is put into a slot may be the next element, no element or the same element again. -/
theorem put (filled : array.FilledTo n) (h : array.Whole) (inside : slot < array.capacity)
    (size : content.length = array.element.size) {m : Nat} (most : m ≤ array.capacity)
    (numbers : m ≤ 2147483648) (same : ∀ other, other ≠ slot → (other < m ↔ other < n))
    (index : if slot < m then Slots.readWord content 0 = slot
      else Slots.readWord content 0 ≤ Slots.emptyIndex) :
    (array.put slot content).FilledTo m := by
  have indices := h.indexAt_put inside size
  refine ⟨most, numbers, ?_, ?_⟩
  · intro other below
    rw [put_element, indices]
    by_cases here : other = slot
    · subst here
      rw [if_pos rfl]
      rwa [if_pos below] at index
    · rw [if_neg here]
      exact filled.own other ((same other here).1 below)
  · intro other bound beyond
    rw [put_element, indices]
    by_cases here : other = slot
    · subst here
      rw [if_pos rfl]
      rwa [if_neg (by omega)] at index
    · rw [if_neg here]
      have := same other here
      exact filled.others other bound (by omega)

end FilledTo

/-! ### Arrays whose count is right -/

/-- The slots with an element are the first ones, as many as the count says. -/
def Packed (array : SlotArray) : Prop :=
  ∀ slot, array.isPresent slot = true ↔ slot < array.count

/-- An array that is filled to a number that its header can hold is packed. -/
theorem FilledTo.packed {n : Nat} (filled : array.FilledTo n) (h : array.Whole)
    (counted : Slots.Counted array.capacity array.element array.bytes)
    (countable : n < 2147483648) : array.count = n ∧ array.Packed := by
  have count := filled.count_eq h counted
  rw [if_pos countable] at count
  refine ⟨count, ?_⟩
  intro slot
  rw [count]
  exact filled.isPresent_iff

namespace Packed

/-- No more slots are counted than there are. -/
theorem count_le (packed : array.Packed) : array.count ≤ array.capacity := by
  apply Nat.le_of_not_lt
  intro beyond
  have last := (packed array.capacity).2 beyond
  exact absurd (isPresent_iff.1 last).1 (Nat.lt_irrefl _)

/-- The present slots are as many as are counted, from the first on. -/
theorem present_eq (packed : array.Packed) (h : array.Sound) :
    array.present = List.range array.count :=
  h.present_of_isPresent packed.count_le packed

/-- A packed array is filled to its count. -/
theorem filledTo (packed : array.Packed) (h : array.Sound) : array.FilledTo array.count := by
  have most := packed.count_le
  refine ⟨most, Nat.le_trans most (Nat.le_trans h.small (by decide)), ?_, ?_⟩
  · intro slot below
    exact h.index_of_isPresent ((packed slot).2 below)
  · intro slot inside beyond
    refine Int.le_of_eq (h.index_of_not_isPresent inside ?_)
    rw [← Bool.not_eq_true, packed slot]
    exact Nat.not_lt.2 beyond

end Packed

end DeviceBlob.SlotArray
