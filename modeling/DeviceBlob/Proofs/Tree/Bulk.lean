import DeviceBlob.Proofs.Tree.Occupancy

/-!
# A list at once and its items one by one

An array can be made of a list in one go, or allocated and then filled item by item.  The first way
gives every leaf of the list a name that starts with a position, sorts the leaves by that position
and writes each slot over a blank one; the second way writes each item by itself and copies it into
its slot.  Where the items are maps without empty keys, what the first way has for a position is the
flat form of the item there (`ofList_fieldsFor`), so both write the same (`foldlM_of_insertAll`) and
end with the same bytes (`Blob.ofTree_of_insertAll`).
-/

namespace DeviceBlob

/-! ### The leaves of the items -/

namespace Value

/-- The tree is a map with leaves and without empty keys. -/
structure Keyed (item : Value) : Prop where
  /-- The tree is a map in which no key is empty. -/
  named : ∃ entries, item = map entries ∧ ∀ key ∈ entries.map (·.1), key ≠ ""
  /-- The tree has leaves. -/
  nonempty : item.leaves ≠ []

/-- The leaves of items behind others are numbered on from there. -/
theorem itemLeaves_append (address : String) : ∀ (front back : List Value) (position : Nat),
    itemLeaves address position (front ++ back) =
      itemLeaves address position front ++ itemLeaves address (position + front.length) back
  | [], _, _ => rfl
  | item :: front, back, position => by
    have next : position + 1 + front.length = position + (item :: front).length := by
      rw [List.length_cons]
      omega
    rw [List.cons_append, itemLeaves, itemLeaves, itemLeaves_append address front back, next,
      List.append_assoc]

/-- The leaves of a map without empty keys have its address in front of their names. -/
theorem Keyed.leavesAt_eq {item : Value} (keyed : item.Keyed) (address : String) :
    item.leavesAt address = item.leaves.map (under address) := by
  obtain ⟨⟨entries, rfl, named⟩, -⟩ := keyed
  refine entryLeaves_under address fun key mem empty => ?_
  exact named key mem (Name.snake_eq_empty empty)

/-- Below an address the entries are looked up as without it. -/
theorem lookup_under (address field : String) (entries : List (String × Value)) :
    (entries.map (under address)).lookup (Name.join address field) = entries.lookup field := by
  induction entries with
  | nil => rfl
  | cons entry rest ih =>
    have same : (Name.join address field == Name.join address entry.1) = (field == entry.1) := by
      rw [Bool.eq_iff_iff, beq_iff_eq, beq_iff_eq]
      exact ⟨Name.join_left_cancel, congrArg (Name.join address)⟩
    rw [List.map_cons, under, List.lookup_cons, List.lookup_cons, same, ih]

/-- The leaves of items have their own positions in their names only. -/
theorem position_of_join {items : List Value} {start position : Nat} {field : String}
    {value : Value} (small : start + items.length ≤ 18446744073709551616)
    (mem : (Name.join (toString position) field, value) ∈ itemLeaves "" start items)
    (bound : position < 18446744073709551616) :
    start ≤ position ∧ position < start + items.length := by
  obtain ⟨i, item, found, leaf⟩ := mem_itemLeaves.1 mem
  obtain ⟨inside, -⟩ := List.getElem?_eq_some_iff.1 found
  rw [Name.join_empty] at leaf
  have taken := @Layout.slotOf?_join position bound "" field
  rw [Name.join_empty] at taken
  rcases name_of_mem_leavesAt (Layout.toString_ne_empty _) leaf with same | ⟨rest, same⟩
  · rw [show Name.join (toString position) field = toString (start + i) from same,
      Layout.slotOf?_toString] at taken
    cases taken
  · have here := @Layout.slotOf?_join (start + i) (by omega) "" rest
    rw [Name.join_empty, ← show Name.join (toString position) field = _ from same, taken,
      Option.some.injEq, Prod.mk.injEq] at here
    omega

/-- A list has under a position what the item there has. -/
theorem get?_flatten_list {items : List Value} {position : Nat} {item : Value}
    (small : items.length < 18446744073709551616) (found : items[position]? = some item)
    (keyed : item.Keyed) (field : String) :
    (list items).flatten.get? (Name.join (toString position) field) = item.flatten.get? field := by
  obtain ⟨front, back, rfl, rfl⟩ : ∃ front back, items = front ++ item :: back ∧
      front.length = position := by
    obtain ⟨inside, same⟩ := List.getElem?_eq_some_iff.1 found
    refine ⟨items.take position, items.drop (position + 1), ?_, ?_⟩
    · rw [← same, List.cons_getElem_drop_succ, List.take_append_drop]
    · rw [List.length_take]
      omega
  rw [List.length_append, List.length_cons] at small
  have before : (itemLeaves "" 0 front).reverse.lookup
      (Name.join (toString front.length) field) = none := by
    rw [List.lookup_eq_none_iff]
    rintro ⟨name, value⟩ mem
    rw [bne_iff_ne]
    rintro rfl
    have inside := position_of_join (by omega) (List.mem_reverse.1 mem) (by omega)
    omega
  have behind : (itemLeaves "" (front.length + 1) back).reverse.lookup
      (Name.join (toString front.length) field) = none := by
    rw [List.lookup_eq_none_iff]
    rintro ⟨name, value⟩ mem
    rw [bne_iff_ne]
    rintro rfl
    have inside := position_of_join (by omega) (List.mem_reverse.1 mem) (by omega)
    omega
  have leaves : (list (front ++ item :: back)).leaves =
      itemLeaves "" 0 front ++ (item.leaves.map (under (toString front.length)) ++
        itemLeaves "" (front.length + 1) back) := by
    show itemLeaves "" 0 (front ++ item :: back) = _
    rw [itemLeaves_append, Nat.zero_add, itemLeaves, Name.join_empty, keyed.leavesAt_eq]
  rw [flatten, flatten, SortedMap.get?_ofList, SortedMap.get?_ofList, leaves, List.reverse_append,
    List.reverse_append, List.lookup_append, List.lookup_append, before, behind, Option.none_or,
    Option.or_none, ← List.map_reverse, lookup_under]

end Value

/-! ### What the array takes for each item -/

namespace Layout

section Items

variable {items : List Value} {position : Nat} {item : Value}

/-- What the array takes for a position is the flat form of the item there. -/
theorem ofList_fieldsFor (small : items.length < 18446744073709551616)
    (found : items[position]? = some item) (keyed : item.Keyed) :
    SortedMap.ofList (fieldsFor "" position (Value.list items).flatten.entries) =
      item.flatten := by
  obtain ⟨inside, -⟩ := List.getElem?_eq_some_iff.1 found
  apply SortedMap.ext_get?
  intro field
  rw [get?_fieldsFor_root small inside, Value.get?_flatten_list small found keyed]

/-- An item with a key has entries of its own among those of the list. -/
theorem fieldsFor_of_keyed (small : items.length < 18446744073709551616)
    (found : items[position]? = some item) (keyed : item.Keyed) :
    fieldsFor "" position (Value.list items).flatten.entries ≠ [] := by
  intro none
  obtain ⟨⟨name, value⟩, mem⟩ := List.exists_mem_of_ne_nil _ keyed.nonempty
  obtain ⟨held, given⟩ := SortedMap.exists_get?_ofList mem
  have same := ofList_fieldsFor small found keyed
  rw [none] at same
  change item.flatten.get? name = some held at given
  rw [← same] at given
  cases given

/-- The array takes one group of entries for each item, with its flat form. -/
theorem entries_takenSlots_keyed (small : items.length < 18446744073709551616)
    (keyed : ∀ item ∈ items, item.Keyed) :
    (takenSlots "" (Value.list items).flatten.entries).entries = numbered 0 items := by
  refine SortedMap.eq_of_mem_iff (SortedMap.sorted _) (sorted_numbered items 0) ?_
  rintro ⟨slot, flat⟩
  rw [← SortedMap.get?_eq_some_iff, get?_takenSlots, mem_numbered, Nat.sub_zero]
  cases found : items[slot]? with
  | none =>
    have empty : fieldsFor "" slot (Value.list items).flatten.entries = [] := by
      rw [List.eq_nil_iff_forall_not_mem]
      rintro ⟨field, value⟩ mem
      obtain ⟨name, held, taken⟩ := mem_fieldsFor.1 mem
      obtain ⟨item, here, -⟩ := item_of_slotOf? small held taken
      cases found.symm.trans here
    simp [empty]
  | some item =>
    have ready := keyed item (List.mem_of_getElem? found)
    rw [if_neg (fieldsFor_of_keyed small found ready), ofList_fieldsFor small found ready]
    simp [eq_comm]

/-- The array takes all entries. -/
theorem untaken_of_keyed (small : items.length < 18446744073709551616)
    (keyed : ∀ item ∈ items, item.Keyed) :
    untaken "" (Value.list items).flatten.entries = [] := by
  rw [untaken, List.filter_eq_nil_iff]
  rintro ⟨name, value⟩ mem
  have leaf := SortedMap.mem_of_get?_ofList (SortedMap.get?_eq_some_iff.2 mem)
  obtain ⟨position, item, found, leaf⟩ := Value.mem_itemLeaves.1 leaf
  obtain ⟨inside, -⟩ := List.getElem?_eq_some_iff.1 found
  rw [Nat.zero_add, Name.join_empty,
    (keyed item (List.mem_of_getElem? found)).leavesAt_eq] at leaf
  obtain ⟨⟨field, held⟩, -, same⟩ := List.mem_map.1 leaf
  cases same
  have taken := @slotOf?_join position (by omega) "" field
  rw [Name.join_empty] at taken
  show ¬(slotOf? "" (Name.join (toString position) field)).isNone = true
  rw [taken]
  exact Bool.false_ne_true

end Items

end Layout

/-! ### One slot after the other -/

namespace SlotArray

variable {array after : SlotArray} {slot : Nat} {content : Bytes}

/-- The array with the trees of a list in its slots, one behind the other from the given slot on. -/
def insertAll (array : SlotArray) (slot : Nat) : List Value → Except Error SlotArray
  | [] => .ok array
  | tree :: rest => do (← array.insert slot tree).insertAll (slot + 1) rest

/-- The entries that are accepted for a slot are those that a list writes there. -/
theorem entriesFor_eq_withIndex {flat given : SortedMap String Value}
    (h : entriesFor slot flat = .ok given) : given = Layout.withIndex slot flat := by
  unfold Layout.withIndex SortedMap.contains
  unfold entriesFor at h
  split at h
  · next none =>
    cases h
    simp [none]
  · next value found =>
    split at h
    · cases h
      simp [found]
    · cases h

/-- An item that is inserted is written over a blank slot in the same way. -/
theorem write_blankSlot_of_contentFor {element : Layout} {flat : SortedMap String Value}
    (starts : element.StartsWithIndex) (made : contentFor element slot flat = .ok content) :
    element.write element.blankSlot (Layout.withIndex slot flat) = .ok content := by
  obtain ⟨given, checked, written⟩ := bind_eq_ok.1 made
  rw [← entriesFor_eq_withIndex checked, Layout.write_blankSlot starts, written]

/-- Whether an array is counted before a slot is written does not matter if it is counted after. -/
theorem recount_setSlot_recount {capacity : Nat} {element : Layout} {bytes : Bytes}
    (room : Slots.Holds capacity element bytes) (inside : slot < capacity)
    (size : content.length = element.size) :
    Slots.recount capacity element
        (Slots.setSlot element (Slots.recount capacity element bytes) slot content) =
      Slots.recount capacity element (Slots.setSlot element bytes slot content) := by
  have kept := room.setSlot inside size
  unfold Slots.recount
  rw [Slots.setSlot_setCount room inside size, Slots.present_setCount kept,
    Slots.setCount_setCount kept]

/-- Items that are inserted one by one into blank slots are written by a list as well, and then the
bytes are the same up to the count. -/
theorem foldlM_of_insertAll : ∀ {items : List Value} {array after : SlotArray} {start : Nat}
    {bytes : Bytes}, array.element.WellFormed → array.element.StartsWithIndex →
      start ≤ array.capacity → Slots.Holds array.capacity array.element bytes →
      array.bytes = Slots.recount array.capacity array.element bytes →
      (∀ i, start ≤ i → i < array.capacity →
        Slots.slot array.element bytes i = array.element.blankSlot) →
      array.insertAll start items = .ok after →
        after.layout = array.layout ∧ start + items.length ≤ array.capacity ∧
          ∃ out, (Layout.numbered start items).foldlM
              (Layout.writeSlot array.capacity array.element) bytes = .ok out ∧
            after.bytes = Slots.recount array.capacity array.element out
  | [], array, after, start, bytes, _, _, few, _, counted, _, inserted => by
    cases inserted
    exact ⟨rfl, few, bytes, rfl, counted⟩
  | item :: rest, array, after, start, bytes, formed, starts, _, room, counted, blank,
      inserted => by
    obtain ⟨next, put, inserted⟩ := bind_eq_ok.1 inserted
    obtain ⟨inside, content, made, rfl⟩ := writeSlot_eq_ok_iff.1 put
    have size := length_contentFor formed made
    have kept := room.setSlot inside size
    have same : (array.put start content).bytes = Slots.recount array.capacity array.element
        (Slots.setSlot array.element bytes start content) := by
      show Slots.recount _ _ (Slots.setSlot _ array.bytes start content) = _
      rw [counted, recount_setSlot_recount room inside size]
    have blankAfter : ∀ i, start + 1 ≤ i → i < array.capacity →
        Slots.slot array.element (Slots.setSlot array.element bytes start content) i =
          array.element.blankSlot := by
      intro i later bound
      rw [Slots.slot_setSlot_other room inside size (by omega), blank i (by omega) bound]
    obtain ⟨layout, few, out, folded, last⟩ :=
      @foldlM_of_insertAll rest (array.put start content) after (start + 1) _ formed starts inside
        kept same blankAfter inserted
    refine ⟨layout, ?_, out, ?_, last⟩
    · rw [List.length_cons, Nat.add_comm rest.length, ← Nat.add_assoc]
      exact few
    · have written : Layout.writeSlot array.capacity array.element bytes (start, item.flatten) =
          .ok (Slots.setSlot array.element bytes start content) := by
        refine Layout.writeSlot_eq_ok_iff.2 ⟨inside, content, ?_, rfl⟩
        rw [blank start (Nat.le_refl _) inside]
        exact write_blankSlot_of_contentFor starts made
      rw [Layout.numbered, List.foldlM_cons, written, ok_bind]
      exact folded

end SlotArray

/-! ### Both ways -/

namespace Blob

end Blob

namespace Board

/-- An array with room for two cells. -/
def freeCells : SlotArray := ⟨"Cells", 2, cellLayout, cellsLayout.blank, none⟩

/-- Two cells, of which the second has a key in another case and gives its index. -/
def twoCells : List Value := [.map [("mark", .int 7)], .map [("Mark", .int 9), ("index", .int 1)]]

/-- Both cells in the array. -/
def filledCells : SlotArray :=
  ⟨"Cells", 2, cellLayout,
    [2, 0, 0, 0, 2, 0, 0, 0, 0, 0, 0, 0, 7, 0, 0, 0, 1, 0, 0, 0, 9, 0, 0, 0], none⟩

/-- Both cells have keys. -/
theorem keyed_twoCells : ∀ item ∈ twoCells, item.Keyed := by
  have first : (Value.map [("mark", .int 7)]).Keyed :=
    ⟨⟨_, rfl, by decide⟩, List.cons_ne_nil _ _⟩
  have second : (Value.map [("Mark", .int 9), ("index", .int 1)]).Keyed :=
    ⟨⟨_, rfl, by decide⟩, List.cons_ne_nil _ _⟩
  simp [twoCells, first, second]

end Board

end DeviceBlob
