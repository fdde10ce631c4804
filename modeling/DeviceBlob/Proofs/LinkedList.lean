import DeviceBlob.Proofs.LinkedList.Strung

/-!
# Linked lists stay chained

The slots of a list are a `chain`: the head says where it starts and ends and how long it is, and
the link of each item leads to the next one (`LinksTo`).  A `Chained` list has such a chain, in the
order of its slots, and its items stand without gaps; there may be more items than the chain has,
for slots can be claimed and never linked.  Every operation keeps a list chained: it leaves the
chain as it is, extends it by one slot at its end, or empties it (`Chained.push_cases`,
`Chained.append_cases`, `Shaped.init_eq`).  Main statement: `chain_of_run`.
-/

namespace DeviceBlob.LinkedList

/-- A list has items with links and a head of three words. -/
structure Shaped (list : LinkedList) : Prop where
  /-- The items are in order, claimed or linked. -/
  items : list.items.Sound
  /-- An item has a link. -/
  next : list.items.element.HasWord DataType.nextField (nextOffset list.items.element)
  /-- The link is not the index. -/
  apart : 4 ≤ nextOffset list.items.element
  /-- The head has the fields of a head. -/
  layout : list.head.layout = headLayout
  /-- The head is complete. -/
  length : list.head.bytes.length = 12
  /-- A walk may meet all slots that there are. -/
  links : list.items.capacity ≤ list.maxLinks

/-- A list in its shape is framed. -/
theorem Shaped.framed {list : LinkedList} (h : Shaped list) : Framed list :=
  ⟨h.items.toWhole, h.items.counted, h.next, h.apart, h.layout, h.length⟩

/-- A list of which the linked slots are the given ones. -/
structure Chained (list : LinkedList) (chain : List Nat) : Prop extends Shaped list where
  /-- The items stand without gaps. -/
  packed : list.items.Packed
  /-- The slots of the list increase. -/
  sorted : chain.Pairwise (· < ·)
  /-- Each of them holds an item. -/
  bound : ∀ slot ∈ chain, slot < list.items.count
  /-- The links lead from the first slot to the others. -/
  linked : LinksTo list.linkAt (Slots.readWord list.head.bytes 0) chain
  /-- The head holds the last slot. -/
  last : slotOf? (Int32.ofInt (Slots.readWord list.head.bytes 4)) = chain.getLast?
  /-- The head holds the number of slots. -/
  count : Slots.readWord list.head.bytes 8 = chain.length

/-- Its head is read from the three words. -/
theorem Shaped.readHead_eq {list : LinkedList} (h : Shaped list) :
    list.readHead = .ok list.storedHead :=
  h.framed.readHead_eq

namespace Shaped

variable {list : LinkedList} {slot : Nat}

/-- The link of a slot is read from its word. -/
theorem getInt32_next (h : Shaped list) (inside : slot < list.items.capacity) :
    (list.items.slotBlob slot).getInt32 DataType.nextField =
      .ok (Int32.ofInt (list.linkAt slot)) :=
  h.framed.getInt32_next inside

/-- The link of a slot is a number of 32 bits. -/
theorem toInt_linkAt (h : Shaped list) (inside : slot < list.items.capacity) :
    (Int32.ofInt (list.linkAt slot)).toInt = list.linkAt slot :=
  h.framed.toInt_linkAt inside

end Shaped

/-! ### The slots of a chained list -/

variable {list : LinkedList} {chain : List Nat} {slot : Nat} {content : Bytes}

/-- A chained list is strung, without strays. -/
theorem Chained.strung (h : Chained list chain) : Strung list list.items.count chain 0 := by
  have small := h.items.small
  have linked := h.linked
  rw [← h.framed.toInt_first] at linked
  have count : list.storedHead.count = Int32.ofNat (chain.length + 0) := by
    unfold storedHead
    rw [h.count, Nat.add_zero]
    rfl
  exact ⟨h.framed, h.items.element, by omega, h.links, h.packed.filledTo h.items, h.sorted, h.bound,
    linked, Or.inl h.last, count⟩

/-- A strung list without strays is chained if its items are sound. -/
theorem Strung.chained {n : Nat} (h : Strung list n chain 0) (sound : list.items.Sound) :
    Chained list chain ∧ list.items.count = n := by
  have small := sound.small
  have inside := h.filled.inside
  have countable : n < 2147483648 := by omega
  obtain ⟨count, packed⟩ := h.filled.packed h.items h.counted countable
  have linked := h.linked
  rw [h.toInt_first] at linked
  have number : Slots.readWord list.head.bytes 8 = chain.length := by
    have fewer := length_le_of_sorted h.sorted h.bound
    have stored : list.storedHead.count.toInt = Slots.readWord list.head.bytes 8 :=
      Blob.toInt_ofInt_readWord (h.layout ▸ headLayout_count) (by rw [h.layout, h.length]; decide)
    rw [← stored, h.count, Nat.add_zero, Int32.toInt_ofNat_of_lt (by omega)]
  exact ⟨⟨⟨sound, h.next, h.apart, h.layout, h.length, h.links⟩, packed, h.sorted,
    by rw [count]; exact h.bound, linked, h.last_of_lt countable, number⟩, count⟩

namespace Chained

/-- A chain is no longer than the capacity. -/
theorem length_le (h : Chained list chain) : chain.length ≤ list.items.capacity :=
  Nat.le_trans (length_le_of_sorted h.sorted h.bound) h.packed.count_le

/-- The slots of a chained list are its chain. -/
theorem slots_eq (h : Chained list chain) : list.slots = .ok chain := h.strung.slots_eq

/-- The first slot of the list is the first of its chain. -/
theorem first_eq (h : Chained list chain) : list.first = .ok chain.head? := by
  have linked := h.linked
  rw [← h.framed.toInt_first] at linked
  unfold first
  rw [h.framed.getInt32_head headLayout_first, ok_bind, slotOf?]
  exact congrArg Except.ok linked.head?

/-- The last slot of the list is the last of its chain. -/
theorem last_eq (h : Chained list chain) : list.last = .ok chain.getLast? := by
  unfold LinkedList.last
  rw [h.framed.getInt32_head headLayout_last, ok_bind, h.last]
  rfl

/-- The link of the last item leads nowhere. -/
theorem linkAt_getLast (h : Chained list chain) (tail : chain.getLast? = some slot) :
    list.linkAt slot < 0 := by
  obtain ⟨front, rfl⟩ := List.getLast?_eq_some_iff.1 tail
  exact h.linked.next_tail

end Chained

/-! ### What is done to a chained list -/

/-- The items stay sound when the last one is linked to another. -/
theorem Framed.sound_leading (h : Framed list) (sound : list.items.Sound)
    (inside : ∀ other ∈ chain, other < list.items.capacity) (slot : Nat) :
    (list.leading chain slot).items.Sound := by
  unfold leading
  cases last : chain.getLast? with
  | none => exact sound
  | some tail =>
    have room := inside tail (List.mem_of_getLast? last)
    refine sound.put room (h.length_relinked room _) ?_
    rw [h.index_relinked room]
    exact sound.index tail room

namespace Chained

/-- What is claimed is not linked, and it is claimed unless all slots are taken. -/
theorem nextSlot_cases (h : Chained list chain) :
    (∃ e, list.nextSlot = .error e) ∨
    ∃ after, list.nextSlot = .ok (list.items.count, after) ∧ Chained after chain := by
  rcases h.strung.nextSlot_cases with ⟨-, full⟩ | ⟨m, room, -, -, claimed, strung⟩
  · exact Or.inl ⟨_, full⟩
  · have index := h.framed.index_claimedContent room
    rw [Slots.toInt_word (Slots.isWord_of_le (Nat.le_of_lt
      (Nat.lt_of_lt_of_le room h.items.small)))] at index
    have sound := h.items.put room (h.framed.length_claimedContent room) (Or.inl index)
    exact Or.inr ⟨_, claimed, (strung.chained sound).1⟩

/-- An append extends the chain by its slot, or it is refused as out of order. -/
theorem append_cases (h : Chained list chain) (small : slot < 2 ^ 63) :
    (∃ after, list.append slot = .ok after ∧ Chained after (chain ++ [slot])) ∨
    ∃ expected found, list.append slot = .error (.outOfOrderAppend expected found) := by
  rcases h.strung.append_eq slot with ⟨ready, same⟩ | ⟨stray, -⟩ | ⟨-, -, refused⟩
  · obtain ⟨after, done, strung, items, -⟩ := h.strung.exists_link ready
    have sound := h.framed.sound_leading h.items h.strung.lt_capacity slot
    rw [← items] at sound
    exact Or.inl ⟨after, same.trans done, (strung.chained sound).1⟩
  · have number := stray.2.2
    rw [Int64.toInt_ofNat_of_lt small] at number
    omega
  · exact Or.inr refused

/-- A push extends the chain by the slot behind the last item, or it leaves the chain, the head and
the items that there are as they were. -/
theorem push_cases (h : Chained list chain) (tree : Value) :
    (∃ after, list.push tree = (.ok list.items.count, after) ∧
      Chained after (chain ++ [list.items.count])) ∨
    ∃ e after, list.push tree = (.error e, after) ∧ Chained after chain ∧
      after.items.count = list.items.count ∧ after.head = list.head := by
  have most := h.items.small
  rcases h.strung.push_cases tree with ⟨content, after, room, size, index, done, strung, items, -⟩ |
    ⟨e, full⟩ | ⟨e, content, room, size, index, empty, failed⟩
  · have sound := (h.framed.putItem room size).sound_leading
      (h.items.put room size (Or.inl index)) h.strung.lt_capacity list.items.count
    rw [← items] at sound
    exact Or.inl ⟨after, done, (strung.chained sound).1⟩
  · exact Or.inr ⟨e, list, full, h, rfl, rfl⟩
  · have sound := h.items.put room size (Or.inr (empty (by omega)))
    obtain ⟨chained, count⟩ := (h.strung.keepEmpty room size index).chained sound
    exact Or.inr ⟨e, _, failed, chained, count, rfl⟩

end Chained

/-- A list whose items are all gone is a list without items once its head says so. -/
theorem Shaped.init_eq (h : Shaped list) : ∃ after, list.init = .ok after ∧ Chained after [] := by
  have small := h.items.small
  obtain ⟨after, done, strung, items⟩ := h.framed.init_eq h.items.element (by omega) h.links
  have sound := h.items.clear
  rw [← items] at sound
  exact ⟨after, done, (strung.chained sound).1⟩

/-- An allocated list has no items. -/
theorem chained_of_allocate {compiler : Compiler} {type : DataType} {capacity : Nat}
    {itemParams : Params} {start : LinkedList} (buildable : type.Buildable)
    (small : capacity ≤ 2147483647)
    (allocated : allocate compiler type capacity itemParams = .ok start) : Chained start [] := by
  obtain ⟨list, framed, started, most, made⟩ := framed_of_allocate buildable allocated
  obtain ⟨sound, -⟩ := SlotArray.sound_of_allocate buildable small made
  have shaped : Shaped list :=
    ⟨sound, framed.next, framed.apart, framed.layout, framed.length, most⟩
  obtain ⟨after, begun, chained⟩ := shaped.init_eq
  cases begun.symm.trans started
  exact chained

/-! ### Runs -/

/-- Something that is done to a list. -/
inductive Operation where
  | push (tree : Value)
  | nextSlot
  | append (slot : Nat)
  | init

/-- The list after an operation, and the slot that the operation was about if it was about one, or
the error with which it failed. -/
def perform (list : LinkedList) : Operation → Except Error (Option Nat) × LinkedList
  | .push tree =>
    match list.push tree with
    | (.ok slot, after) => (.ok (some slot), after)
    | (.error e, after) => (.error e, after)
  | .nextSlot =>
    match list.nextSlot with
    | .ok (slot, after) => (.ok (some slot), after)
    | .error e => (.error e, list)
  | .append slot =>
    match list.append slot with
    | .ok after => (.ok (some slot), after)
    | .error e => (.error e, list)
  | .init =>
    match list.init with
    | .ok after => (.ok none, after)
    | .error e => (.error e, list)

/-- The list after operations one behind the other, whether they fail or not. -/
def run (list : LinkedList) (operations : List Operation) : LinkedList :=
  operations.foldl (fun list operation => (list.perform operation).2) list

/-- The slot of an append is a 64-bit integer that is not negative. -/
def Operation.InRange : Operation → Prop
  | .append slot => slot < 2 ^ 63
  | _ => True

namespace Chained

/-- A push adds one slot behind the chain, or fails with chain, count and head as they were. -/
theorem perform_push (h : Chained list chain) (tree : Value) :
    (∃ slot after, list.perform (.push tree) = (.ok (some slot), after) ∧
      Chained after (chain ++ [slot])) ∨
    ∃ e after, list.perform (.push tree) = (.error e, after) ∧ Chained after chain ∧
      after.items.count = list.items.count ∧ after.head = list.head := by
  simp only [LinkedList.perform]
  rcases h.push_cases tree with ⟨after, done, chained⟩ | ⟨e, after, failed, same⟩
  · rw [done]
    exact Or.inl ⟨_, after, rfl, chained⟩
  · rw [failed]
    exact Or.inr ⟨e, after, rfl, same⟩

/-- An append adds its slot behind the chain, or fails and leaves the list as it was. -/
theorem perform_append (h : Chained list chain) (small : slot < 2 ^ 63) :
    (∃ after, list.perform (.append slot) = (.ok (some slot), after) ∧
      Chained after (chain ++ [slot])) ∨
    ∃ e, list.perform (.append slot) = (.error e, list) := by
  simp only [LinkedList.perform]
  rcases h.append_cases small with ⟨after, done, chained⟩ | ⟨expected, found, failed⟩
  · rw [done]
    exact Or.inl ⟨after, rfl, chained⟩
  · rw [failed]
    exact Or.inr ⟨_, rfl⟩

/-- Whatever is done to a list, it stays chained, and if it fails the chain stays the same. -/
theorem perform (h : Chained list chain) {operation : Operation} (inRange : operation.InRange) :
    (∃ done chain', (list.perform operation).1 = .ok done ∧
      Chained (list.perform operation).2 chain') ∨
    ∃ e after, list.perform operation = (.error e, after) ∧ Chained after chain ∧
      after.items.count = list.items.count ∧ after.head = list.head := by
  cases operation with
  | push tree =>
    rcases h.perform_push tree with ⟨slot, after, done, chained⟩ | failed
    · rw [done]
      exact Or.inl ⟨_, _, rfl, chained⟩
    · exact Or.inr failed
  | nextSlot =>
    simp only [LinkedList.perform]
    rcases h.nextSlot_cases with ⟨e, full⟩ | ⟨after, claimed, chained⟩
    · rw [full]
      exact Or.inr ⟨e, list, rfl, h, rfl, rfl⟩
    · rw [claimed]
      exact Or.inl ⟨_, chain, rfl, chained⟩
  | append slot =>
    rcases h.perform_append inRange with ⟨after, done, chained⟩ | ⟨e, failed⟩
    · rw [done]
      exact Or.inl ⟨_, _, rfl, chained⟩
    · exact Or.inr ⟨e, list, failed, h, rfl, rfl⟩
  | init =>
    obtain ⟨after, done, chained⟩ := h.toShaped.init_eq
    simp only [LinkedList.perform, done]
    exact Or.inl ⟨_, [], rfl, chained⟩

/-- A run keeps a list chained. -/
theorem run {list : LinkedList} {chain : List Nat} (h : Chained list chain) :
    ∀ {operations : List Operation}, (∀ operation ∈ operations, operation.InRange) →
      ∃ chain', Chained (list.run operations) chain'
  | [], _ => ⟨chain, h⟩
  | operation :: rest, inRange => by
    have later : ∀ operation ∈ rest, operation.InRange := fun operation mem =>
      inRange operation (List.mem_cons_of_mem _ mem)
    have step : ∃ chain', Chained (list.perform operation).2 chain' := by
      rcases h.perform (inRange operation List.mem_cons_self) with
        ⟨_, chain', -, chained⟩ | ⟨_, after, failed, chained, -⟩
      · exact ⟨chain', chained⟩
      · rw [failed]
        exact ⟨chain, chained⟩
    obtain ⟨between, chained⟩ := step
    exact chained.run later

end Chained

/-- Nodes that hold nothing but their links. -/
def nodesType : DataType :=
  .array "Nodes" (.record "Node" [("index", .scalar .int32), ("next", .scalar .int32)])

/-- The layout of a node. -/
def nodeLayout : Layout :=
  .record "Node" [("index", .scalar .int32), ("next", .scalar .int32)]

/-- A list with room for three nodes. -/
def threeNodes : LinkedList :=
  ⟨⟨"Nodes", 3, nodeLayout, (Layout.array "Nodes" 3 nodeLayout).blank, none⟩,
    ⟨headLayout, headBytes headLayout.blank .empty⟩, 5000⟩

/-- The array of nodes can be built. -/
theorem buildable_nodesType : nodesType.Buildable := by
  have record : DataType.ofFields "Node" [("index", .scalar .int32), ("next", .scalar .int32)] =
      .ok (.record "Node" [("index", .scalar .int32), ("next", .scalar .int32)]) := rfl
  have array : DataType.ofElement "Nodes"
      (.record "Node" [("index", .scalar .int32), ("next", .scalar .int32)]) = .ok nodesType := rfl
  refine .array (.record ?_ record) array
  simp [DataType.Buildable.scalar]

end DeviceBlob.LinkedList
