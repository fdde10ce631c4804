import DeviceBlob.Proofs.PackedArray

/-!
# Which slot is claimed

The slot whose number is the count is tried before the others are searched.  If the elements stand
close together that is the slot behind the last, and the first that is empty.  If they do not, it may
be empty although a slot in front of it is empty too: then the later one is claimed
(`Consistent.lowest_iff`).

What the count says rests on the array being `Consistent`, which every operation on an array of
whatever capacity keeps.  An array may have more slots than a word has numbers, so the count may be
`0` where there are elements; then the first slot holds one, and the others are searched.
-/

namespace DeviceBlob.SlotArray

/-- An array of any capacity as all operations keep it. -/
structure Consistent (array : SlotArray) : Prop extends Whole array where
  /-- The number of slots is a number of 64 bits. -/
  small : array.capacity < 2 ^ 63
  /-- The elements have a layout that the compiler makes. -/
  element : array.element.WellFormed
  /-- The header holds the number of elements, as far as it can. -/
  counted : Slots.Counted array.capacity array.element array.bytes
  /-- A slot with an element has its number as its index. -/
  own : ∀ slot, array.isPresent slot = true →
    Slots.indexAt array.element array.bytes slot = slot

variable {array after : SlotArray} {slot other : Nat} {content : Bytes}

/-! ### Slots that are tried -/

/-- A slot is claimed exactly if one is empty. -/
theorem exists_nextSlot_iff : (∃ slot after, array.nextSlot = .ok (slot, after)) ↔
    ∃ slot < array.capacity, array.isPresent slot = false := by
  constructor
  · rintro ⟨slot, after, claimed⟩
    exact ⟨slot, freeSlot?_eq_some (nextSlot_eq_ok_iff.1 claimed).1⟩
  · rintro ⟨slot, inside, empty⟩
    cases free : array.freeSlot? with
    | none =>
      rw [freeSlot?_eq_none_iff.1 free slot inside] at empty
      cases empty
    | some first => exact ⟨first, _, nextSlot_eq_ok_iff.2 ⟨free, rfl⟩⟩

namespace Packed

/-- Where the elements stand close together the slot behind them is claimed. -/
theorem freeSlot?_eq (packed : array.Packed) (free : array.freeSlot? = some slot) :
    slot = array.count := by
  obtain ⟨inside, empty⟩ := freeSlot?_eq_some free
  rcases freeSlot?_cases free with ⟨same, -⟩ | ⟨all | here, -⟩
  · exact same
  · rw [(packed slot).2 (Nat.lt_of_lt_of_le inside all)] at empty
    cases empty
  · exact absurd ((packed _).1 here) (Nat.lt_irrefl _)

end Packed

namespace Consistent

/-! ### What the count says -/

/-- A slot whose number no word can hold never holds an element. -/
theorem lt_of_isPresent (h : array.Consistent) (here : array.isPresent slot = true) :
    slot < 2147483648 := by
  obtain ⟨inside, -⟩ := isPresent_iff.1 here
  have room := h.room.slot inside
  have four := h.starts.four_le_size
  have word := (@Slots.isWord_readWord array.bytes (array.element.slotOffset slot) (by omega)).2
  have own : Slots.readWord array.bytes (array.element.slotOffset slot) = slot := h.own slot here
  omega

/-- No slot is listed twice as present. -/
theorem nodup_present (h : array.Consistent) : array.present.Nodup := by
  rw [h.present_eq]
  exact List.nodup_range.filter _

/-- The count is right, or it is `0` although the first slot holds an element. -/
theorem count_cases (h : array.Consistent) : array.count = array.present.length ∨
    (array.count = 0 ∧ array.isPresent 0 = true) := by
  have stored : Slots.storedCount array.bytes =
      Bytes.toInt (.ofInt Slots.wordSize array.present.length) := congrArg Bytes.toInt h.counted
  have few := Slots.subperm_range h.nodup_present fun _ mem =>
    h.lt_of_isPresent (h.mem_present_iff.1 mem)
  have most := few.length_le
  rw [List.length_range] at most
  rw [count, stored, Slots.toInt_word_of_le most]
  split
  · exact Or.inl (Int.toNat_natCast _)
  · next many =>
    -- There is an element for each number of a word, so one of them is in the first slot.
    refine Or.inr ⟨rfl, h.mem_present_iff.1 ?_⟩
    have all := few.perm_of_length_le (by rw [List.length_range]; exact Nat.le_of_not_lt many)
    exact all.mem_iff.2 (List.mem_range.2 (by decide))

/-- If a slot is empty, the count is the number of a slot. -/
theorem count_lt (h : array.Consistent) (inside : slot < array.capacity)
    (empty : array.isPresent slot = false) : array.count < array.capacity := by
  rcases h.count_cases with right | ⟨zero, -⟩
  · have hole : ∃ slot ∈ List.range array.capacity, ¬array.isPresent slot = true :=
      ⟨slot, List.mem_range.2 inside, by simp [empty]⟩
    have fewer := List.length_filter_lt_length_iff_exists.2 hole
    rw [← h.present_eq, List.length_range] at fewer
    rwa [right]
  · omega

/-- If the slots in front of an empty one hold elements, and that one has the count as its number,
no other slot holds an element. -/
theorem packed_of_front (h : array.Consistent)
    (front : ∀ other < array.count, array.isPresent other = true)
    (empty : array.isPresent array.count = false) : array.Packed := by
  rcases h.count_cases with right | ⟨zero, here⟩
  · have all : array.present = List.range array.count := by
      rw [right] at front ⊢
      refine Slots.present_eq_range fun slot before => ?_
      exact (Slots.mem_present_iff.1 (h.mem_present_iff.2 (front slot before))).2
    intro slot
    rw [← h.mem_present_iff, all, List.mem_range]
  · rw [zero, here] at empty
    cases empty

/-- The slot that is claimed is the first that is empty exactly if the elements stand close together
or the slot whose number is the count holds one. -/
theorem lowest_iff (h : array.Consistent) (free : array.freeSlot? = some slot) :
    (∀ other < slot, array.isPresent other = true) ↔
      array.Packed ∨ array.isPresent array.count = true := by
  obtain ⟨inside, hole⟩ := freeSlot?_eq_some free
  rcases freeSlot?_cases free with ⟨rfl, empty⟩ | ⟨many | here, first⟩
  · constructor
    · intro front
      exact Or.inl (h.packed_of_front front empty)
    · rintro (packed | here)
      · exact fun other before => (packed other).2 before
      · rw [here] at empty
        cases empty
  · exact absurd (h.count_lt inside hole) (Nat.not_lt.2 many)
  · exact iff_of_true first (Or.inr here)

/-! ### What operations keep -/

/-- Putting in an element or an empty slot keeps an array consistent. -/
theorem put (h : array.Consistent) (inside : slot < array.capacity)
    (size : content.length = array.element.size)
    (index : Slots.readWord content 0 = slot ∨ Slots.readWord content 0 ≤ Slots.emptyIndex) :
    (array.put slot content).Consistent := by
  refine ⟨h.toWhole.put inside size, h.small, h.element, h.counted_put inside size, ?_⟩
  intro other here
  rw [h.isPresent_put inside size] at here
  rw [put_element, h.indexAt_put inside size]
  by_cases same : other = slot
  · subst same
    rw [if_pos rfl, decide_eq_true_eq] at here
    rw [if_pos rfl]
    rcases index with own | empty
    · exact own
    · omega
  · rw [if_neg same] at here ⊢
    exact h.own other here

/-- Inserting keeps the count in step with the slots. -/
theorem insert (h : array.Consistent) {tree : Value}
    (inserted : array.insert slot tree = .ok after) : after.Consistent := by
  obtain ⟨inside, content, made, rfl⟩ := writeSlot_eq_ok_iff.1 inserted
  have index := readWord_contentFor h.element h.starts (Nat.lt_trans inside h.small) made
  exact h.put inside (length_contentFor h.element made) (Or.inl index)

/-- Removing keeps the count in step with the slots. -/
theorem remove (h : array.Consistent) {here : Bool}
    (removed : array.remove slot = .ok (here, after)) : after.Consistent := by
  obtain ⟨inside, ⟨-, rfl⟩ | ⟨-, rfl⟩⟩ := remove_eq_ok removed
  · rw [h.mark_eq_put inside]
    refine h.put inside (h.length_marked inside _) (Or.inr (Int.le_of_eq ?_))
    exact h.readWord_marked inside Slots.isWord_emptyIndex
  · exact h

/-- The slot that is claimed is at most the first whose number no word can hold. -/
theorem le_of_freeSlot? (h : array.Consistent) (free : array.freeSlot? = some slot) :
    slot ≤ 2147483648 := by
  rcases freeSlot?_cases free with ⟨rfl, -⟩ | ⟨-, first⟩
  · rcases h.count_cases with right | ⟨zero, -⟩
    · rw [right]
      exact Slots.length_le_of_nodup h.nodup_present fun _ mem =>
        h.lt_of_isPresent (h.mem_present_iff.1 mem)
    · omega
  · apply Nat.le_of_not_lt
    intro beyond
    exact absurd (h.lt_of_isPresent (first _ beyond)) (Nat.lt_irrefl _)

/-- A slot that is claimed gets its number as its index if a word can hold it, and is empty if
not. -/
theorem readWord_claimed (h : array.Consistent) (free : array.freeSlot? = some slot) :
    Slots.readWord (Slots.writeWord (Slots.slot array.element array.bytes slot) 0 slot) 0 =
      if slot < 2147483648 then (slot : Int) else -2147483648 := by
  rw [h.readWord_marked_eq (freeSlot?_eq_some free).1,
    Slots.toInt_word_of_le (h.le_of_freeSlot? free)]

/-- Claiming a slot keeps the count in step with the slots. -/
theorem nextSlot (h : array.Consistent) (claimed : array.nextSlot = .ok (slot, after)) :
    after.Consistent := by
  obtain ⟨free, rfl⟩ := nextSlot_eq_ok_iff.1 claimed
  obtain ⟨inside, -⟩ := freeSlot?_eq_some free
  have index := h.readWord_claimed free
  rw [h.mark_eq_put inside]
  refine h.put inside (h.length_marked inside _) ?_
  split at index
  · exact Or.inl index
  · exact Or.inr (by rw [index]; decide)

/-- A claim changes nothing but that its slot holds an element, if a word can hold its number. -/
theorem isPresent_nextSlot (h : array.Consistent) (claimed : array.nextSlot = .ok (slot, after))
    (other : Nat) : after.isPresent other = true ↔
      array.isPresent other = true ∨ other = slot ∧ slot < 2147483648 := by
  obtain ⟨free, rfl⟩ := nextSlot_eq_ok_iff.1 claimed
  obtain ⟨inside, empty⟩ := freeSlot?_eq_some free
  rw [h.mark_eq_put inside, h.isPresent_put inside (h.length_marked inside _)]
  by_cases same : other = slot
  · subst same
    rw [if_pos rfl, h.readWord_claimed free, decide_eq_true_eq, empty, Slots.emptyIndex]
    split
    · next fits => exact iff_of_true (by omega) (Or.inr ⟨rfl, fits⟩)
    · next large => exact iff_of_false (by decide) (by simp [large])
  · simp [same]

/-- Clearing keeps the count in step with the slots. -/
theorem clear (h : array.Consistent) : array.clear.Consistent := by
  refine ⟨h.toWhole.clear, h.small, h.element, h.counted_clear, ?_⟩
  intro slot here
  obtain ⟨inside, positive⟩ := isPresent_iff.1 here
  have index : Slots.indexAt array.clear.element array.clear.bytes slot = Slots.emptyIndex :=
    h.index_clear inside
  rw [index] at positive
  exact absurd positive (Int.lt_irrefl _)

/-- Fresh bytes hold no slot and count none. -/
theorem of_blank (small : array.capacity < 2 ^ 63) (wellFormed : array.layout.WellFormed)
    (blank : array.bytes = array.layout.blank) : array.Consistent := by
  have length : array.bytes.length = array.layout.size := by
    rw [blank]
    exact Layout.length_blank wellFormed
  refine ⟨⟨wellFormed.1, length⟩, small, wellFormed.2, ?_, ?_⟩
  · rw [blank]
    exact Layout.counted_blank wellFormed
  · intro slot here
    obtain ⟨inside, positive⟩ := isPresent_iff.1 here
    rw [indexAt_of_blank wellFormed blank inside] at positive
    exact absurd positive (Int.lt_irrefl _)

/-- Reconciling keeps what is in step as it is. -/
theorem reconcile (h : array.Consistent) : array.reconcile.2.Consistent := by
  have right : array.recount = array := by
    unfold recount
    rw [h.counted.recount_eq]
  unfold SlotArray.reconcile
  simp only [right]
  split
  · exact h
  · exact ⟨⟨h.starts, h.length⟩, h.small, h.element, h.counted, h.own⟩

/-- An operation keeps an array consistent, whether it fails or not. -/
theorem perform (h : array.Consistent) (operation : Operation) :
    (array.perform operation).2.Consistent :=
  perform_induction (motive := Consistent) (fun h done => h.insert done) (fun h done => h.remove done)
    (fun h done => h.nextSlot done) clear
    (fun h => of_blank h.small ⟨h.starts, h.element⟩ h.init_bytes) reconcile h operation

/-- The count stays in step with the slots along every run of operations. -/
theorem run : ∀ {operations : List Operation} {array : SlotArray}, array.Consistent →
    (array.run operations).Consistent
  | [], _, h => h
  | operation :: _, _, h => (h.perform operation).run

end Consistent

/-- **Which slot is claimed after any run of operations on an allocated array**, of any capacity and
whether the operations failed or not.  A slot is claimed exactly if one is empty; it is an empty
slot, and the others stay as they are.  It is the slot whose number is the count if the elements
stand close together, and also if they do not but that slot is empty.  So it is the first empty slot
exactly if the elements stand close together or the slot whose number is the count holds one. -/
theorem nextSlot_lowest_iff {compiler : Compiler} {type : DataType} {capacity : Nat}
    {itemParams : Params} {start : SlotArray} (buildable : type.Buildable)
    (allocated : allocate compiler type capacity itemParams = .ok start)
    (operations : List Operation) (reached : array = start.run operations) :
    ((∃ slot after, array.nextSlot = .ok (slot, after)) ↔
      ∃ slot < array.capacity, array.isPresent slot = false) ∧
    ∀ slot after, array.nextSlot = .ok (slot, after) →
      (slot < array.capacity ∧ array.isPresent slot = false) ∧
      (∀ other, after.isPresent other = true ↔
        array.isPresent other = true ∨ other = slot ∧ slot < 2147483648) ∧
      (array.Packed ∨ array.isPresent array.count = false → slot = array.count) ∧
      ((∀ other < slot, array.isPresent other = true) ↔
        array.Packed ∨ array.isPresent array.count = true) := by
  obtain ⟨wellFormed, blank, same, -⟩ := blank_of_allocate buildable allocated
  have bound := (Int64.ofNat capacity).toInt_lt
  have h : array.Consistent := by
    rw [reached]
    exact (Consistent.of_blank (by omega) wellFormed blank).run
  refine ⟨exists_nextSlot_iff, ?_⟩
  intro slot after claimed
  obtain ⟨free, -⟩ := nextSlot_eq_ok_iff.1 claimed
  refine ⟨freeSlot?_eq_some free, h.isPresent_nextSlot claimed, ?_, h.lowest_iff free⟩
  rintro (packed | empty)
  · exact packed.freeSlot?_eq free
  · rcases freeSlot?_cases free with ⟨same, -⟩ | ⟨many | here, -⟩
    · exact same
    · obtain ⟨inside, hole⟩ := freeSlot?_eq_some free
      exact absurd (h.count_lt inside hole) (Nat.not_lt.2 many)
    · rw [here] at empty
      cases empty

/-- Four particles without values. -/
def fourParticles : SlotArray :=
  ⟨"Particles", 4, Scene.particleLayout,
    (Layout.array "Particles" 4 Scene.particleLayout).blank, none⟩

/-- A fresh array of four particles. -/
theorem allocate_fourParticles :
    allocate (Compiler.mk .aligned 5000) (.array "Particles" Scene.particleType) 4 ∅ =
      .ok fourParticles := rfl

/-- All four slots are claimed, and the two in the middle are emptied again. -/
def hollow : List Operation :=
  [.nextSlot, .nextSlot, .nextSlot, .nextSlot, .remove 1, .remove 2]

/-- Where two of four particles are left, at both ends, the third slot is claimed. -/
theorem nextSlot_lowest_iff_particles :
    (DataType.array "Particles" Scene.particleType).Buildable ∧
      allocate (Compiler.mk .aligned 5000) (.array "Particles" Scene.particleType) 4 ∅ =
        .ok fourParticles ∧
      ∀ slot after, (fourParticles.run hollow).nextSlot = .ok (slot, after) → slot = 2 := by
  obtain ⟨-, claimed⟩ :=
    nextSlot_lowest_iff Scene.buildable_particles allocate_fourParticles hollow rfl
  refine ⟨Scene.buildable_particles, allocate_fourParticles, ?_⟩
  intro slot after done
  obtain ⟨-, -, counted, -⟩ := claimed slot after done
  exact counted (Or.inr rfl)

/-- The slot that is claimed is not the first that is empty, and the elements do not stand close
together. -/
theorem later_slot_claimed_particles :
    allocate (Compiler.mk .aligned 5000) (.array "Particles" Scene.particleType) 4 ∅ =
        .ok fourParticles ∧
      (∃ after, (fourParticles.run hollow).nextSlot = .ok (2, after)) ∧
      (fourParticles.run hollow).present = [0, 3] ∧ (fourParticles.run hollow).count = 2 ∧
      ¬(fourParticles.run hollow).Packed := by
  refine ⟨allocate_fourParticles, ⟨_, rfl⟩, by decide, by decide, ?_⟩
  intro packed
  exact absurd ((packed 1).2 (by decide)) (by decide)

end DeviceBlob.SlotArray
