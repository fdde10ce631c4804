import DeviceBlob.Proofs.SlotArray
import DeviceBlob.Proofs.Tree.WriteBack
import Mathlib

/-!
# The slots that a list of trees fills

A list that is made into an array gives its trees to the slots in order.  What ends up in a slot is
decided by the index that is written there: it is the index that the tree gives, or the number of
the slot if the tree gives other values only, or none if the tree has no leaves at all.  So the
array holds as many elements as the list has items, each under its own number, exactly if every
item `KeepsPlace`.  Main statement: `Blob.holdsFirst_of_ofTree_iff`.
-/

namespace DeviceBlob

/-! ### The leaves of one item -/

namespace Value

mutual

/-- How many leaves there are does not depend on the address. -/
theorem length_leavesAt (address other : String) : ∀ value : Value,
    (value.leavesAt address).length = (value.leavesAt other).length
  | bool _ | int _ | float _ | label _ => rfl
  | list items => length_itemLeaves address other 0 items
  | map entries => length_entryLeaves address other entries

/-- A list has as many leaves under each address. -/
theorem length_itemLeaves (address other : String) (position : Nat) : ∀ items : List Value,
    (itemLeaves address position items).length = (itemLeaves other position items).length
  | [] => rfl
  | item :: rest => by
    rw [itemLeaves, itemLeaves, List.length_append, List.length_append,
      length_leavesAt _ (Name.join other (toString position)) item,
      length_itemLeaves address other (position + 1) rest]

/-- Entries have as many leaves under each address. -/
theorem length_entryLeaves (address other : String) : ∀ entries : List (String × Value),
    (entryLeaves address entries).length = (entryLeaves other entries).length
  | [] => rfl
  | (key, item) :: rest => by
    rw [entryLeaves, entryLeaves, List.length_append, List.length_append,
      length_leavesAt _ (Name.join other (Name.snake key)) item,
      length_entryLeaves address other rest]

end

/-- A tree has leaves at an address if it has leaves at all. -/
theorem leavesAt_eq_nil_iff {value : Value} {address : String} :
    value.leavesAt address = [] ↔ value.leaves = [] := by
  have same : (value.leavesAt address).length = value.leaves.length := by
    cases value with
    | list items => exact length_itemLeaves address "" 0 items
    | map entries => exact length_entryLeaves address "" entries
    | _ => rfl
  rw [← List.length_eq_zero_iff, same, List.length_eq_zero_iff]

/-- Below a named address every name starts with it. -/
theorem join_join {outer : String} (named : outer ≠ "") (middle inner : String) :
    ∃ rest, Name.join (Name.join outer middle) inner = Name.join outer rest := by
  have longer : outer ++ "_" ++ middle ≠ "" := by simp [named]
  refine ⟨middle ++ "_" ++ inner, ?_⟩
  rw [Name.join_of_ne_empty named, Name.join_of_ne_empty named, Name.join_of_ne_empty longer]
  simp only [String.append_assoc]

mutual

/-- A leaf at a named address has that name or one that continues it. -/
theorem name_of_mem_leavesAt {entry : String × Value} : ∀ {value : Value} {address : String},
    address ≠ "" → entry ∈ value.leavesAt address →
      entry.1 = address ∨ ∃ rest, entry.1 = Name.join address rest
  | bool _, _, _, mem | int _, _, _, mem | float _, _, _, mem | label _, _, _, mem => by
    simp only [leavesAt, List.mem_singleton] at mem
    exact Or.inl (congrArg Prod.fst mem)
  | list _, _, named, mem => Or.inr (name_of_mem_itemLeaves named mem)
  | map _, _, named, mem => Or.inr (name_of_mem_entryLeaves named mem)

/-- A leaf of a list is named below its address. -/
theorem name_of_mem_itemLeaves {entry : String × Value} : ∀ {items : List Value}
    {address : String} {position : Nat}, address ≠ "" →
      entry ∈ itemLeaves address position items → ∃ rest, entry.1 = Name.join address rest
  | [], _, _, _, mem => absurd mem List.not_mem_nil
  | _ :: _, address, position, named, mem => by
    rcases List.mem_append.1 mem with mem | mem
    · have longer := @Name.join_ne_empty address _ (Layout.toString_ne_empty position)
      rcases name_of_mem_leavesAt longer mem with same | ⟨rest, same⟩
      · exact ⟨_, same⟩
      · rw [same]
        exact join_join named _ rest
    · exact name_of_mem_itemLeaves named mem

/-- A leaf of entries is named below their address. -/
theorem name_of_mem_entryLeaves {entry : String × Value} : ∀ {entries : List (String × Value)}
    {address : String}, address ≠ "" → entry ∈ entryLeaves address entries →
      ∃ rest, entry.1 = Name.join address rest
  | [], _, _, mem => absurd mem List.not_mem_nil
  | (key, _) :: _, address, named, mem => by
    rcases List.mem_append.1 mem with mem | mem
    · have longer : Name.join address (Name.snake key) ≠ "" := by
        rw [Name.join_of_ne_empty named]
        simp
      rcases name_of_mem_leavesAt longer mem with same | ⟨rest, same⟩
      · exact ⟨_, same⟩
      · rw [same]
        exact join_join named _ rest
    · exact name_of_mem_entryLeaves named mem

end

end Value

/-! ### Which slots hold elements -/

/-- The first slots of an array hold an element each, under their own numbers, the other slots are
empty, and the header has the number of the elements. -/
structure Slots.HoldsFirst (count capacity : Nat) (element : Layout) (bytes : Bytes) : Prop where
  /-- The header has the number of the elements. -/
  counted : storedCount bytes = count
  /-- The first slots hold an element, and no other slot does. -/
  present : present capacity element bytes = List.range count
  /-- The elements have the numbers of their slots. -/
  index : ∀ i < count, indexAt element bytes i = i
  /-- The other slots have the index of an empty slot. -/
  empty : ∀ i, count ≤ i → i < capacity → indexAt element bytes i = emptyIndex

/-- The item at a position of a list has a leaf, and if it gives an index, it is that position. -/
def Value.KeepsPlace (items : List Value) (position : Nat) (item : Value) : Prop :=
  item.leaves ≠ [] ∧ ∀ value, (Value.list items).flatten.get?
    (Name.join (toString position) DataType.indexField) = some value →
      ∃ n, value.int? = some n ∧ n.toInt = position

namespace Layout

section Root

variable {items : List Value}

/-- The names of the leaves of a list start with the positions of their items. -/
theorem position_of_mem_flatten {name : String} {value : Value}
    (mem : (name, value) ∈ (Value.list items).flatten.entries) :
    ∃ (position : Nat) (item : Value), items[position]? = some item ∧ item.leaves ≠ [] ∧
      (name = toString position ∨ ∃ field, name = Name.join (toString position) field) := by
  have leaf := SortedMap.mem_of_get?_ofList (SortedMap.get?_eq_some_iff.2 mem)
  obtain ⟨position, item, found, leaf⟩ := Value.mem_itemLeaves.1 leaf
  rw [Nat.zero_add, Name.join_empty] at leaf
  have some : item.leaves ≠ [] := by
    intro none
    rw [Value.leavesAt_eq_nil_iff.2 none] at leaf
    exact absurd leaf List.not_mem_nil
  exact ⟨position, item, found, some,
    Value.name_of_mem_leavesAt (toString_ne_empty position) leaf⟩

/-- A position by itself is not the name of something in a slot. -/
theorem slotOf?_toString (position : Nat) : slotOf? "" (toString position) = none := by
  have uncut : Text.cutFirst Name.separator (Nat.toDigits 10 position) = none := by
    cases cut : Text.cutFirst Name.separator (Nat.toDigits 10 position) with
    | none => rfl
    | some parts =>
      obtain ⟨before, after⟩ := parts
      have same := (Text.cutFirst_eq_some_iff.1 cut).1
      have absent := (Text.isNumeral_toDigits position).not_mem
      rw [same] at absent
      exact absurd (List.mem_append_right _ List.mem_cons_self) absent
  unfold slotOf?
  rw [if_pos (by decide)]
  simp only [Option.bind_eq_bind, Option.bind_some, toList_toString, uncut, Option.bind_none]

/-- What an array takes for a slot comes from the item at that position. -/
theorem item_of_slotOf? (small : items.length < 18446744073709551616) {name field : String}
    {value : Value} {slot : Nat} (mem : (name, value) ∈ (Value.list items).flatten.entries)
    (taken : slotOf? "" name = some (slot, field)) :
    ∃ item, items[slot]? = some item ∧ item.leaves ≠ [] ∧
      name = Name.join (toString slot) field := by
  obtain ⟨position, item, found, leaves, same | ⟨rest, same⟩⟩ := position_of_mem_flatten mem
  · rw [same, slotOf?_toString] at taken
    cases taken
  · obtain ⟨inside, -⟩ := List.getElem?_eq_some_iff.1 found
    have here := @slotOf?_join position (by omega) "" rest
    rw [Name.join_empty, ← same, taken, Option.some.injEq, Prod.mk.injEq] at here
    obtain ⟨rfl, rfl⟩ := here
    exact ⟨item, found, leaves, same⟩

/-- If no entry of a list is left over, each item with leaves has entries for its slot. -/
theorem fieldsFor_ne_nil (small : items.length < 18446744073709551616)
    (taken : untaken "" (Value.list items).flatten.entries = []) {i : Nat} {item : Value}
    (found : items[i]? = some item) (leaves : item.leaves ≠ []) :
    fieldsFor "" i (Value.list items).flatten.entries ≠ [] := by
  obtain ⟨inside, -⟩ := List.getElem?_eq_some_iff.1 found
  obtain ⟨⟨name, value⟩, rest, first⟩ := List.exists_cons_of_ne_nil
    fun none => leaves ((@Value.leavesAt_eq_nil_iff item (toString i)).1 none)
  have leaf : (name, value) ∈ item.leavesAt (toString i) := by
    rw [first]
    exact List.mem_cons_self
  have among : (name, value) ∈ (Value.list items).leaves := by
    refine Value.mem_itemLeaves.2 ⟨i, item, found, ?_⟩
    rwa [Nat.zero_add, Name.join_empty]
  obtain ⟨held, given⟩ := SortedMap.exists_get?_ofList among
  have mem : (name, held) ∈ (Value.list items).flatten.entries :=
    SortedMap.get?_eq_some_iff.1 given
  have wanted : (slotOf? "" name).isNone = false := by
    by_contra free
    rw [Bool.not_eq_false] at free
    have left : (name, held) ∈ untaken "" (Value.list items).flatten.entries :=
      List.mem_filter.2 ⟨mem, free⟩
    rw [taken] at left
    exact absurd left List.not_mem_nil
  rcases Value.name_of_mem_leavesAt (toString_ne_empty i) leaf with same | ⟨field, same⟩
  · rw [show name = toString i from same, slotOf?_toString] at wanted
    cases wanted
  · have here := @slotOf?_join i (by omega) "" field
    rw [Name.join_empty, ← show name = Name.join (toString i) field from same] at here
    exact List.ne_nil_of_mem (mem_fieldsFor.2 ⟨name, mem, here⟩)

/-- What an array holds for a field of a slot is the entry under the joined name. -/
theorem get?_fieldsFor_root (small : items.length < 18446744073709551616) {slot : Nat}
    (inside : slot < items.length) (field : String) :
    (SortedMap.ofList (fieldsFor "" slot (Value.list items).flatten.entries)).get? field =
      (Value.list items).flatten.get? (Name.join (toString slot) field) := by
  have named : ∀ field value,
      (field, value) ∈ fieldsFor "" slot (Value.list items).flatten.entries ↔
        (Value.list items).flatten.get? (Name.join (toString slot) field) = some value := by
    intro field value
    rw [mem_fieldsFor, SortedMap.get?_eq_some_iff]
    constructor
    · rintro ⟨name, mem, taken⟩
      obtain ⟨-, -, -, same⟩ := item_of_slotOf? small mem taken
      exact same ▸ mem
    · intro mem
      exact ⟨_, mem, slotOf?_join (by omega) "" field⟩
  have functional :
      SortedMap.Functional (fieldsFor "" slot (Value.list items).flatten.entries) := by
    rintro ⟨first, a⟩ ha ⟨second, b⟩ hb same
    cases same
    have found := (named first a).1 ha
    rw [(named first b).1 hb] at found
    cases found
    rfl
  apply Option.ext
  intro value
  rw [SortedMap.get?_eq_some_iff, SortedMap.mem_ofList_iff functional, named]

end Root

/-- The index of an element is the one that is given, or else the number of its slot. -/
theorem get?_withIndex (slot : Nat) (flat : SortedMap String Value) :
    (withIndex slot flat).get? DataType.indexField =
      some ((flat.get? DataType.indexField).getD (.int (.ofNat slot))) := by
  unfold withIndex SortedMap.contains
  cases found : flat.get? DataType.indexField with
  | some value => simp [found]
  | none => simp [SortedMap.get?_insert]

section Array

variable {name : String} {capacity : Nat} {element : Layout} {bytes out : Bytes}

/-- Writing an array goes through the slots and then counts the elements. -/
theorem write_array_eq_ok_iff {flat : SortedMap String Value} :
    (array name capacity element).write bytes flat = .ok out ↔
      untaken "" flat.entries = [] ∧ ∃ filled,
        (takenSlots "" flat.entries).entries.foldlM (writeSlot capacity element) bytes =
          .ok filled ∧ out = Slots.recount capacity element filled := by
  have whole : (array name capacity element).remaining flat = flat.entries := by
    simp [remaining, leafNames, placesAt, isArray]
  rw [write_eq_ok_iff, whole]
  constructor
  · rintro ⟨leaves, left, first, second, taken⟩
    cases first
    rw [rootAddress, writeArrays_array, bind_eq_ok] at second
    obtain ⟨filled, folded, counted⟩ := second
    obtain ⟨same, rest⟩ := Prod.mk.inj (pure_eq_ok.1 counted)
    exact ⟨rest.trans taken, filled, folded, same.symm⟩
  · rintro ⟨taken, filled, folded, rfl⟩
    refine ⟨bytes, _, rfl, ?_, taken⟩
    rw [rootAddress, writeArrays_array, folded]
    rfl

/-- What a blank array holds after it was written: a slot that no entry is for stays blank, and any
other slot is written from its entries. -/
theorem slots_of_write {flat : SortedMap String Value}
    (formed : (array name capacity element).WellFormed)
    (written : (array name capacity element).write (array name capacity element).blank flat =
      .ok out) :
    Slots.Holds capacity element out ∧
      (∀ i < capacity, fieldsFor "" i flat.entries = [] →
        Slots.slot element out i = element.blankSlot) ∧
      ∀ i, fieldsFor "" i flat.entries ≠ [] → i < capacity ∧
        element.write element.blankSlot
          (withIndex i (SortedMap.ofList (fieldsFor "" i flat.entries))) =
            .ok (Slots.slot element out i) := by
  obtain ⟨-, filled, folded, rfl⟩ := write_array_eq_ok_iff.1 written
  obtain ⟨room, kept, each⟩ := slots_of_takenSlots (holds_blank formed) folded
  refine ⟨room.setCount _, ?_, ?_⟩
  · intro i inside none
    rw [Slots.recount, Slots.slot_setCount room, kept i none, slot_blank formed inside]
  · intro i some
    obtain ⟨inside, put⟩ := each i some
    rw [slot_blank formed inside] at put
    rw [Slots.recount, Slots.slot_setCount room]
    exact ⟨inside, put⟩

/-- The count of an array that was written is that of its elements, if it fits its field. -/
theorem storedCount_of_write {flat : SortedMap String Value}
    (formed : (array name capacity element).WellFormed)
    (written : (array name capacity element).write (array name capacity element).blank flat =
      .ok out) (small : (Slots.present capacity element out).length ≤ 2147483647) :
    Slots.storedCount out = (Slots.present capacity element out).length := by
  obtain ⟨-, filled, folded, rfl⟩ := write_array_eq_ok_iff.1 written
  obtain ⟨room, -⟩ := slots_of_takenSlots (holds_blank formed) folded
  rw [Slots.recount, Slots.present_setCount room] at small ⊢
  exact Slots.storedCount_setCount room small

/-! ### The slots of the items -/

variable {items : List Value}

/-- The index that a list gives to the item at a position, or else that position. -/
def givenIndex (items : List Value) (position : Nat) : Value :=
  ((Value.list items).flatten.get? (Name.join (toString position) DataType.indexField)).getD
    (.int (.ofNat position))

/-- The slot of an item with leaves has the index that is given for the item. -/
theorem indexAt_of_write_list (formed : (array name capacity element).WellFormed)
    (small : items.length < 18446744073709551616)
    (written : (array name capacity element).write (array name capacity element).blank
      (Value.list items).flatten = .ok out) {i : Nat} {item : Value}
    (found : items[i]? = some item) (leaves : item.leaves ≠ []) :
    ∃ n, (givenIndex items i).int? = some n ∧ Slots.indexAt element out i = n.toInt := by
  obtain ⟨inside, -⟩ := List.getElem?_eq_some_iff.1 found
  obtain ⟨-, -, each⟩ := slots_of_write formed written
  obtain ⟨taken, -⟩ := write_array_eq_ok_iff.1 written
  obtain ⟨-, filled⟩ := each i (fieldsFor_ne_nil small taken found leaves)
  obtain ⟨value, n, given, number, index⟩ :=
    exists_index_of_write formed.1 (length_blankSlot formed.2 formed.1) filled
  rw [get?_withIndex, get?_fieldsFor_root small inside, Option.some.injEq] at given
  refine ⟨n, ?_, ?_⟩
  · rw [givenIndex, given, number]
  · rw [Slots.indexAt_eq_readWord_slot formed.1.four_le_size, index]

/-- A slot without an item that has leaves stays empty. -/
theorem indexAt_of_write_list_empty (formed : (array name capacity element).WellFormed)
    (small : items.length < 18446744073709551616)
    (written : (array name capacity element).write (array name capacity element).blank
      (Value.list items).flatten = .ok out) {i : Nat} (inside : i < capacity)
    (none : ∀ item, items[i]? = some item → item.leaves = []) :
    Slots.indexAt element out i = Slots.emptyIndex := by
  obtain ⟨-, blank, -⟩ := slots_of_write formed written
  have no : fieldsFor "" i (Value.list items).flatten.entries = [] := by
    rw [List.eq_nil_iff_forall_not_mem]
    rintro ⟨field, value⟩ mem
    obtain ⟨name, held, taken⟩ := mem_fieldsFor.1 mem
    obtain ⟨item, found, leaves, -⟩ := item_of_slotOf? small held taken
    exact leaves (none item found)
  rw [Slots.indexAt_eq_readWord_slot formed.1.four_le_size, blank i inside no,
    readWord_blankSlot formed.2 formed.1]

/-- The slot of an item has its own number as its index exactly if the item keeps its place. -/
theorem indexAt_eq_iff_keepsPlace (formed : (array name capacity element).WellFormed)
    (small : items.length < 9223372036854775808)
    (written : (array name capacity element).write (array name capacity element).blank
      (Value.list items).flatten = .ok out) {i : Nat} {item : Value}
    (found : items[i]? = some item) (inside : i < capacity) :
    Slots.indexAt element out i = i ↔ Value.KeepsPlace items i item := by
  have narrow : items.length < 18446744073709551616 := by omega
  obtain ⟨among, -⟩ := List.getElem?_eq_some_iff.1 found
  constructor
  · intro index
    have leaves : item.leaves ≠ [] := by
      intro none
      have empty := indexAt_of_write_list_empty formed narrow written inside fun other here => by
        cases found.symm.trans here
        exact none
      rw [index, Slots.emptyIndex] at empty
      omega
    refine ⟨leaves, fun value given => ?_⟩
    obtain ⟨n, number, stored⟩ := indexAt_of_write_list formed narrow written found leaves
    rw [givenIndex, given, Option.getD_some] at number
    exact ⟨n, number, stored.symm.trans index⟩
  · rintro ⟨leaves, kept⟩
    obtain ⟨n, number, stored⟩ := indexAt_of_write_list formed narrow written found leaves
    rw [stored]
    unfold givenIndex at number
    cases given : (Value.list items).flatten.get?
        (Name.join (toString i) DataType.indexField) with
    | none =>
      rw [given] at number
      cases number
      exact Int64.toInt_ofNat_of_lt (by omega)
    | some value =>
      obtain ⟨m, same, place⟩ := kept value given
      rw [given] at number
      cases same.symm.trans number
      exact place

/-- If the first slots have their own numbers and the others are empty, the first slots are those
that hold elements. -/
theorem present_eq_range {count : Nat} (starts : element.StartsWithIndex) (few : count ≤ capacity)
    (index : ∀ i < count, Slots.indexAt element out i = i)
    (empty : ∀ i, count ≤ i → i < capacity → Slots.indexAt element out i = Slots.emptyIndex) :
    Slots.present capacity element out = List.range count := by
  rw [Slots.present_eq]
  refine Slots.filter_range_eq few fun i inside => ?_
  rw [Slots.isOccupied, ← Slots.indexAt_eq_readWord_slot starts.four_le_size, decide_eq_true_eq]
  by_cases front : i < count
  · rw [index i front, Slots.emptyIndex]
    omega
  · rw [empty i (Nat.not_lt.1 front) inside, Slots.emptyIndex]
    omega

/-- The array that a list was written into holds its items in the first slots exactly if each of
them keeps its place. -/
theorem holdsFirst_of_write_iff (formed : (array name capacity element).WellFormed)
    (few : items.length ≤ capacity) (small : items.length < 9223372036854775808)
    (written : (array name capacity element).write (array name capacity element).blank
      (Value.list items).flatten = .ok out) :
    Slots.HoldsFirst items.length capacity element out ↔
      items.length ≤ 2147483647 ∧
        ∀ (i : Nat) (item : Value), items[i]? = some item → Value.KeepsPlace items i item := by
  constructor
  · intro first
    constructor
    · have room := (slots_of_write formed written).1
      have fits := Slots.isWord_readWord (Nat.le_trans (by decide : 4 + 4 ≤ 8) room.header)
      have counted : Slots.readWord out 4 = items.length := first.counted
      rw [counted] at fits
      have := fits.2
      omega
    · intro i item found
      obtain ⟨inside, -⟩ := List.getElem?_eq_some_iff.1 found
      exact (indexAt_eq_iff_keepsPlace formed small written found (by omega)).1
        (first.index i inside)
  · rintro ⟨fits, keeps⟩
    have index : ∀ i < items.length, Slots.indexAt element out i = i := by
      intro i inside
      have found := List.getElem?_eq_getElem inside
      exact (indexAt_eq_iff_keepsPlace formed small written found (by omega)).2 (keeps i _ found)
    have empty : ∀ i, items.length ≤ i → i < capacity →
        Slots.indexAt element out i = Slots.emptyIndex := by
      intro i behind inside
      refine indexAt_of_write_list_empty formed (by omega) written inside fun item found => ?_
      rw [List.getElem?_eq_none behind] at found
      cases found
    have present := present_eq_range formed.1 few index empty
    have counted := storedCount_of_write formed written (by rw [present, List.length_range]; omega)
    rw [present, List.length_range] at counted
    exact ⟨counted, present, index, empty⟩

end Array

end Layout

/-! ### Arrays made of lists -/

namespace Blob

end Blob

/-! ### Cells that keep their places, and cells that do not -/

namespace Board

/-- Room for two cells. -/
def cellParams : Params := .ofList [(DataType.capacityParameter, 2)]

/-- A list of one cell with a mark. -/
def markedCells : List Value := [.map [("mark", .int 7)]]

/-- A list of one cell that gives the index of another one. -/
def strayCells : List Value := [.map [("index", .int 5), ("mark", .int 0)]]

/-- The marked cell keeps its place. -/
theorem keepsPlace_markedCells (i : Nat) (item : Value) (found : markedCells[i]? = some item) :
    Value.KeepsPlace markedCells i item := by
  cases i with
  | zero =>
    cases found
    refine ⟨List.cons_ne_nil _ _, fun value given => ?_⟩
    have none : (Value.list markedCells).flatten.get?
        (Name.join (toString 0) DataType.indexField) = none := by decide
    cases none.symm.trans given
  | succ i => cases found

/-- Cells in bytes. -/
def cellsLayout : Layout := .array "Cells" 2 cellLayout

/-- The marked cell is present at its place. -/
theorem ofTree_markedCells :
    Blob.ofTree (Compiler.mk .aligned 5000) (.array "Cells" cellType) (.list markedCells)
      cellParams = .ok ⟨cellsLayout,
        [2, 0, 0, 0, 1, 0, 0, 0, 0, 0, 0, 0, 7, 0, 0, 0, 255, 255, 255, 255, 0, 0, 0, 0]⟩ := by
  cbv

/-- The stray cell is in the first slot, with the index that it gives. -/
theorem ofTree_strayCells :
    Blob.ofTree (Compiler.mk .aligned 5000) (.array "Cells" cellType) (.list strayCells)
      cellParams = .ok ⟨cellsLayout,
        [2, 0, 0, 0, 1, 0, 0, 0, 5, 0, 0, 0, 0, 0, 0, 0, 255, 255, 255, 255, 0, 0, 0, 0]⟩ := by
  cbv

/-- The empty cell leaves no slot present. -/
theorem ofTree_emptyCell :
    Blob.ofTree (Compiler.mk .aligned 5000) (.array "Cells" cellType) (.list [.emptyMap])
      cellParams = .ok ⟨cellsLayout,
        [2, 0, 0, 0, 0, 0, 0, 0, 255, 255, 255, 255, 0, 0, 0, 0, 255, 255, 255, 255, 0, 0, 0, 0]⟩ :=
  by cbv

end Board

end DeviceBlob
