import DeviceBlob.Blob.Tree
import DeviceBlob.Proofs.Blob.Write
import DeviceBlob.Proofs.Tree.Entries

/-!
# Writing and reading the items of an array

An array that is served takes one group of entries for each item, with the flat form of the item
(`entries_takenSlots`).  Written in this order, the items fill the first slots and the others stay
empty (`foldlM_writeSlot`), so the items are what is read from the array
(`nestedValue_of_slots`).
-/

namespace DeviceBlob.Layout

open SortedMap (Functional)

/-! ### The entries for one slot -/

/-- What an array takes for a slot, in the order of the entries. -/
def fieldsFor (address : String) (slot : Nat) (entries : Entries) : List (String × Value) :=
  entries.filterMap fun entry =>
    (slotOf? address entry.1).bind fun taken =>
      if taken.1 = slot then some (taken.2, entry.2) else none

/-- The entries for a slot are those whose names carry its number, under what stands behind it. -/
theorem mem_fieldsFor {address : String} {slot : Nat} {entries : Entries} {field : String}
    {value : Value} :
    (field, value) ∈ fieldsFor address slot entries ↔
      ∃ name, (name, value) ∈ entries ∧ slotOf? address name = some (slot, field) := by
  simp only [fieldsFor, List.mem_filterMap, Option.bind_eq_some_iff, Prod.exists]
  constructor
  · rintro ⟨name, _, mem, slot', field', taken, same⟩
    by_cases here : slot' = slot
    · rw [if_pos here] at same
      cases same
      exact ⟨name, mem, here ▸ taken⟩
    · rw [if_neg here] at same
      cases same
  · rintro ⟨name, mem, taken⟩
    exact ⟨name, value, mem, slot, field, taken, if_pos rfl⟩

/-- The groups with one more entry, if it is for a slot. -/
def addTaken (address : String) (slots : SlotEntries) (entry : String × Value) : SlotEntries :=
  match slotOf? address entry.1 with
  | some (slot, field) => addToSlot slots slot field entry.2
  | none => slots

/-- Each group holds what its entries put into it, one after the other. -/
theorem get?_foldl_addTaken (address : String) (slot : Nat) : ∀ (entries : Entries)
    (slots : SlotEntries),
    (entries.foldl (addTaken address) slots).get? slot =
      if fieldsFor address slot entries = [] then slots.get? slot
      else some ((fieldsFor address slot entries).foldl
        (fun m (key, value) => m.insert key value) ((slots.get? slot).getD ∅))
  | [], slots => rfl
  | (name, value) :: rest, slots => by
    rw [List.foldl_cons, get?_foldl_addTaken address slot rest]
    cases taken : slotOf? address name with
    | none =>
      have same : fieldsFor address slot ((name, value) :: rest) = fieldsFor address slot rest := by
        simp [fieldsFor, taken]
      have kept : addTaken address slots (name, value) = slots := by
        simp only [addTaken, taken]
      rw [same, kept]
    | some found =>
      obtain ⟨other, field⟩ := found
      have added : addTaken address slots (name, value) = addToSlot slots other field value := by
        simp only [addTaken, taken]
      by_cases here : other = slot
      · subst here
        have more : fieldsFor address other ((name, value) :: rest) =
            (field, value) :: fieldsFor address other rest := by
          simp [fieldsFor, taken]
        have put : (addToSlot slots other field value).get? other =
            some (((slots.get? other).getD ∅).insert field value) := by
          rw [addToSlot, SortedMap.get?_insert, if_pos rfl]
        rw [added, put, more, if_neg (List.cons_ne_nil _ _), List.foldl_cons, Option.getD_some]
        by_cases last : fieldsFor address other rest = []
        · rw [if_pos last, last]
          rfl
        · rw [if_neg last]
      · have same : fieldsFor address slot ((name, value) :: rest) =
            fieldsFor address slot rest := by
          simp [fieldsFor, taken, here]
        have kept : (addToSlot slots other field value).get? slot = slots.get? slot := by
          rw [addToSlot, SortedMap.get?_insert, if_neg (Ne.symm here)]
        rw [added, same, kept]

/-- Each slot is looked up with the entries that name it. -/
theorem get?_takenSlots (address : String) (slot : Nat) (entries : Entries) :
    (takenSlots address entries).get? slot =
      if fieldsFor address slot entries = [] then none
      else some (SortedMap.ofList (fieldsFor address slot entries)) :=
  get?_foldl_addTaken address slot entries ∅

/-- The array takes a group for each slot that an entry is for. -/
theorem mem_takenSlots {address : String} {entries : Entries} {slot : Nat}
    {flat : SortedMap String Value} :
    (slot, flat) ∈ (takenSlots address entries).entries ↔ fieldsFor address slot entries ≠ [] ∧
      flat = SortedMap.ofList (fieldsFor address slot entries) := by
  rw [← SortedMap.get?_eq_some_iff, get?_takenSlots]
  split
  · next none => simp [none]
  · next some => simp [some, eq_comm]

/-- The flat forms of items with the slots that they are for. -/
def numbered (start : Nat) : List Value → List (Nat × SortedMap String Value)
  | [] => []
  | item :: rest => (start, item.flatten) :: numbered (start + 1) rest

/-- Items are numbered by where they stand. -/
theorem mem_numbered {slot : Nat} {flat : SortedMap String Value} : ∀ {items : List Value}
    {start : Nat}, (slot, flat) ∈ numbered start items ↔
      start ≤ slot ∧ ∃ item, items[slot - start]? = some item ∧ flat = item.flatten
  | [], start => by simp [numbered]
  | first :: rest, start => by
    rw [numbered, List.mem_cons, mem_numbered, Prod.mk.injEq]
    constructor
    · rintro (⟨rfl, rfl⟩ | ⟨later, item, found, rfl⟩)
      · exact ⟨Nat.le_refl _, first, by rw [Nat.sub_self]; rfl, rfl⟩
      · refine ⟨by omega, item, ?_, rfl⟩
        have next : slot - start = slot - (start + 1) + 1 := by omega
        rw [next]
        exact found
    · rintro ⟨later, item, found, rfl⟩
      rcases Nat.eq_or_lt_of_le later with rfl | later
      · rw [Nat.sub_self] at found
        cases found
        exact Or.inl ⟨rfl, rfl⟩
      · refine Or.inr ⟨later, item, ?_, rfl⟩
        have next : slot - start = slot - (start + 1) + 1 := by omega
        rw [next] at found
        exact found

/-- Their numbers ascend. -/
theorem sorted_numbered : ∀ (items : List Value) (start : Nat),
    (numbered start items).Pairwise fun a b => a.1 < b.1
  | [], _ => List.Pairwise.nil
  | item :: rest, start => by
    refine List.pairwise_cons.2 ⟨?_, sorted_numbered rest (start + 1)⟩
    rintro ⟨slot, flat⟩ mem
    exact (mem_numbered.1 mem).1

/-- An array that is served takes one group of entries for each item. -/
theorem entries_takenSlots {address : String} {items : List Value} {entries : Entries}
    (serves : Serves entries address items)
    (functional : ∀ item ∈ items, Functional item.leaves)
    (nonempty : ∀ item ∈ items, item.leaves ≠ []) :
    (takenSlots address entries).entries = numbered 0 items := by
  refine SortedMap.eq_of_mem_iff (SortedMap.sorted _) (sorted_numbered items 0) ?_
  rintro ⟨slot, flat⟩
  rw [← SortedMap.get?_eq_some_iff, get?_takenSlots, mem_numbered, Nat.sub_zero]
  have served : ∀ field value, (field, value) ∈ fieldsFor address slot entries ↔
      ∃ item, items[slot]? = some item ∧ (field, value) ∈ item.leaves := by
    intro field value
    exact mem_fieldsFor.trans (serves slot field value)
  cases found : items[slot]? with
  | none =>
    have empty : fieldsFor address slot entries = [] := by
      rw [List.eq_nil_iff_forall_not_mem]
      rintro ⟨field, value⟩ mem
      obtain ⟨item, here, -⟩ := (served field value).1 mem
      cases found.symm.trans here
    simp [empty]
  | some item =>
    have member := List.mem_of_getElem? found
    have same : ∀ entry, entry ∈ fieldsFor address slot entries ↔ entry ∈ item.leaves := by
      rintro ⟨field, value⟩
      rw [served, found]
      simp
    have filled : fieldsFor address slot entries ≠ [] := by
      obtain ⟨entry, rest, leaves⟩ := List.exists_cons_of_ne_nil (nonempty item member)
      have held : entry ∈ fieldsFor address slot entries := by
        rw [same, leaves]
        exact List.mem_cons_self
      exact List.ne_nil_of_mem held
    rw [if_neg filled, SortedMap.ofList_congr (functional item member) same]
    simp [Value.flatten, eq_comm]

/-! ### Slot after slot -/

variable {capacity : Nat} {element : Layout}

/-- Entries for different slots are each written over what was in their slot, and the other slots
stay as they are. -/
theorem slots_of_foldlM {groups : List (Nat × SortedMap String Value)} {bytes out : Bytes}
    (room : Slots.Holds capacity element bytes) (nodup : (groups.map (·.1)).Nodup)
    (folded : groups.foldlM (writeSlot capacity element) bytes = .ok out) :
    Slots.Holds capacity element out ∧
      (∀ i ∉ groups.map (·.1), Slots.slot element out i = Slots.slot element bytes i) ∧
      ∀ group ∈ groups, group.1 < capacity ∧
        element.write (Slots.slot element bytes group.1) (withIndex group.1 group.2) =
          .ok (Slots.slot element out group.1) := by
  induction groups generalizing bytes with
  | nil =>
    rw [List.foldlM_nil, pure_eq_ok] at folded
    subst folded
    exact ⟨room, fun _ _ => rfl, by simp⟩
  | cons group rest ih =>
    obtain ⟨start, flat⟩ := group
    rw [List.map_cons, List.nodup_cons] at nodup
    rw [List.foldlM_cons, bind_eq_ok] at folded
    obtain ⟨next, put, folded⟩ := folded
    obtain ⟨inside, content, written, rfl⟩ := writeSlot_eq_ok_iff.1 put
    have size := length_write (Slots.length_slot room inside) written
    have others : ∀ i ≠ start, Slots.slot element (Slots.setSlot element bytes start content) i =
        Slots.slot element bytes i := by
      intro i other
      exact Slots.slot_setSlot_other room inside size other
    obtain ⟨room', kept, each⟩ := ih (room.setSlot inside size) nodup.2 folded
    refine ⟨room', ?_, ?_⟩
    · intro i absent
      rw [List.map_cons, List.mem_cons, not_or] at absent
      rw [kept i absent.2, others i absent.1]
    · intro other mem
      rcases List.mem_cons.1 mem with rfl | mem
      · rw [kept start nodup.1, Slots.slot_setSlot_same room inside size]
        exact ⟨inside, written⟩
      · have different : other.1 ≠ start := by
          intro same
          exact nodup.1 (List.mem_map.2 ⟨other, mem, same⟩)
        have later := each other mem
        rwa [others other.1 different] at later

/-- The header of the array stays as it is. -/
theorem header_of_foldlM {groups : List (Nat × SortedMap String Value)} {bytes out : Bytes}
    (room : Slots.Holds capacity element bytes)
    (folded : groups.foldlM (writeSlot capacity element) bytes = .ok out) :
    out.slice 0 headerSize = bytes.slice 0 headerSize := by
  refine (foldlM_invariant (fun b => Slots.Holds capacity element b ∧
    b.slice 0 headerSize = bytes.slice 0 headerSize) ?_ ⟨room, rfl⟩ folded).2
  rintro b ⟨slot, flat⟩ - next ⟨room, kept⟩ put
  obtain ⟨inside, content, written, rfl⟩ := writeSlot_eq_ok_iff.1 put
  have size := length_write (Slots.length_slot room inside) written
  exact ⟨room.setSlot inside size,
    (Slots.slice_setSlot_header room inside (Nat.le_of_eq (Nat.zero_add _))).trans kept⟩

/-- What an array takes is written slot by slot: a slot that no entry is for stays as it is. -/
theorem slots_of_takenSlots {address : String} {entries : Entries} {bytes out : Bytes}
    (room : Slots.Holds capacity element bytes)
    (folded : (takenSlots address entries).entries.foldlM (writeSlot capacity element) bytes =
      .ok out) :
    Slots.Holds capacity element out ∧
      (∀ i, fieldsFor address i entries = [] →
        Slots.slot element out i = Slots.slot element bytes i) ∧
      ∀ i, fieldsFor address i entries ≠ [] → i < capacity ∧
        element.write (Slots.slot element bytes i)
          (withIndex i (SortedMap.ofList (fieldsFor address i entries))) =
            .ok (Slots.slot element out i) := by
  obtain ⟨room', kept, each⟩ :=
    slots_of_foldlM room (SortedMap.nodup_keys (takenSlots address entries)) folded
  refine ⟨room', ?_, ?_⟩
  · intro i none
    apply kept
    intro mem
    obtain ⟨⟨_, fields⟩, held, rfl⟩ := List.mem_map.1 mem
    exact (mem_takenSlots.1 held).1 none
  · intro i some
    exact each _ (mem_takenSlots.2 ⟨some, rfl⟩)

/-- Items written from some slot on fill the slots from there on, and the slots behind them stay
empty.  What a slot shows of its item is up to `Shows`. -/
theorem foldlM_writeSlot {Shows : Nat → Value → Bytes → Prop} : ∀ {items : List Value}
    {start : Nat} {bytes : Bytes}, Slots.Holds capacity element bytes →
      start + items.length ≤ capacity →
      (∀ i, start ≤ i → i < capacity → Slots.slot element bytes i = element.blankSlot) →
      (∀ (i : Nat) (item : Value), items[i]? = some item → ∃ content,
        element.write element.blankSlot (withIndex (start + i) item.flatten) = .ok content ∧
          content.length = element.size ∧ Shows (start + i) item content) →
        ∃ out, (numbered start items).foldlM (writeSlot capacity element) bytes = .ok out ∧
          out.length = bytes.length ∧
          (∀ i < start, Slots.slot element out i = Slots.slot element bytes i) ∧
          (∀ (i : Nat) (item : Value), items[i]? = some item →
            Shows (start + i) item (Slots.slot element out (start + i))) ∧
          (∀ i, start + items.length ≤ i → i < capacity →
            Slots.slot element out i = element.blankSlot)
  | [], start, bytes, _, _, blank, _ =>
    ⟨bytes, rfl, rfl, fun _ _ => rfl, by simp, fun i behind => blank i behind⟩
  | first :: rest, start, bytes, room, fit, blank, each => by
    rw [List.length_cons] at fit
    obtain ⟨content, written, size, shown⟩ := each 0 first rfl
    rw [Nat.add_zero] at written shown
    have inside : start < capacity := by omega
    have put : writeSlot capacity element bytes (start, first.flatten) =
        .ok (Slots.setSlot element bytes start content) := by
      refine writeSlot_eq_ok_iff.2 ⟨inside, content, ?_, rfl⟩
      rw [blank start (Nat.le_refl _) inside, written]
    have others : ∀ i ≠ start, Slots.slot element (Slots.setSlot element bytes start content) i =
        Slots.slot element bytes i := by
      intro i other
      exact Slots.slot_setSlot_other room inside size other
    have blankAfter : ∀ i, start + 1 ≤ i → i < capacity →
        Slots.slot element (Slots.setSlot element bytes start content) i = element.blankSlot := by
      intro i later bound
      rw [others i (by omega), blank i (by omega) bound]
    have eachAfter : ∀ (i : Nat) (item : Value), rest[i]? = some item → ∃ content,
        element.write element.blankSlot (withIndex (start + 1 + i) item.flatten) = .ok content ∧
          content.length = element.size ∧ Shows (start + 1 + i) item content := by
      intro i item found
      have below := each (i + 1) item found
      rwa [Nat.add_left_comm, Nat.add_comm] at below
    obtain ⟨out, folded, length, before, shows, behind⟩ :=
      foldlM_writeSlot (room.setSlot inside size) (by omega) blankAfter eachAfter
    refine ⟨out, ?_, ?_, ?_, ?_, ?_⟩
    · rw [numbered, List.foldlM_cons, put, ok_bind, folded]
    · rw [length, Slots.length_setSlot room inside size]
    · intro i earlier
      rw [before i (by omega), others i (by omega)]
    · intro i item found
      cases i with
      | zero =>
        cases found
        rwa [Nat.add_zero, before start (by omega), Slots.slot_setSlot_same room inside size]
      | succ i =>
        have later := shows i item found
        rwa [Nat.add_assoc, Nat.add_comm 1 i] at later
    · intro i later bound
      rw [List.length_cons] at later
      exact behind i (by omega) bound

/-- What is read from an array of which the first slots show items and the others are empty. -/
theorem nestedValue_of_slots {name : String} {bytes : Bytes} {items : List Value}
    (formed : element.WellFormed) (starts : element.StartsWithIndex)
    (small : items.length ≤ capacity)
    (shows : ∀ (i : Nat) (item : Value), items[i]? = some item →
      (nestedValue (Slots.slot element bytes i) element).quiet = item.quiet ∧
        Slots.readWord (Slots.slot element bytes i) 0 = i)
    (empty : ∀ i, items.length ≤ i → i < capacity →
      Slots.slot element bytes i = element.blankSlot) :
    (nestedValue bytes (array name capacity element)).quiet = (Value.list items).quiet := by
  have first : ∀ i < capacity,
      Slots.isOccupied (Slots.slot element bytes i) = true ↔ i < items.length := by
    intro i bound
    rw [Slots.isOccupied, decide_eq_true_eq, Slots.emptyIndex]
    by_cases inside : i < items.length
    · have index := (shows i items[i] (List.getElem?_eq_getElem inside)).2
      rw [index]
      omega
    · rw [empty i (Nat.not_lt.1 inside) bound, readWord_blankSlot formed starts, Slots.emptyIndex]
      omega
  rw [nestedValue, Slots.occupied_eq, Slots.filter_range_eq small first, List.map_map, Value.quiet,
    Value.quiet, Value.quietItems_eq_map, Value.quietItems_eq_map, List.map_map]
  congr 1
  apply List.ext_getElem?
  intro i
  by_cases inside : i < items.length
  · have found := List.getElem?_eq_getElem inside
    rw [List.getElem?_map, List.getElem?_map, List.getElem?_range inside, found]
    exact congrArg some (shows i _ found).1
  · rw [List.getElem?_eq_none (by simpa using inside), List.getElem?_eq_none (by simpa using inside)]

end DeviceBlob.Layout
