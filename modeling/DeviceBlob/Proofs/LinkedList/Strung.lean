import DeviceBlob.Proofs.LinkedList.Frame

/-!
# Lists whose links lead along a chain

A list of any capacity is `Strung`: its first slots hold items, its links lead along a chain of
them, and the head says where the chain starts and ends and how long it is.  There may be more items
than the chain has, for slots can be claimed and never linked.  What an operation does is the same
for all of these lists: it claims the slot behind the last item (`Strung.nextSlot_cases`), extends
the chain by a `Ready` item (`Strung.exists_link`) or both (`Strung.push_cases`).

The head may also count strays.  An append is given any number of 64 bits.  It compares that number,
read as a signed one, with the index in the slot and with the count of the items, and it writes the
number as one of 32 bits.  This is right for all numbers but one: `2 ^ 64 - 1` is read as `-1`,
which is also what is found in the place of a slot that there is not and what is expected while no
item is counted (`Stray`).
-/

namespace DeviceBlob.LinkedList

/-- A list of any capacity of which the first slots hold items and the linked slots are the given
ones.  The head counts these and a number of strays. -/
structure Strung (list : LinkedList) (n : Nat) (chain : List Nat) (strays : Nat) : Prop
    extends Framed list where
  /-- The items have a layout that the compiler makes. -/
  element : list.items.element.WellFormed
  /-- The numbers of the slots can be read as signed ones. -/
  small : list.items.capacity < 2 ^ 63
  /-- A walk may meet all slots that there are. -/
  links : list.items.capacity ≤ list.maxLinks
  /-- The first slots hold items. -/
  filled : list.items.FilledTo n
  /-- The slots of the list increase. -/
  sorted : chain.Pairwise (· < ·)
  /-- Each of them holds an item. -/
  bound : ∀ slot ∈ chain, slot < n
  /-- The links lead from the first slot to the others. -/
  linked : LinksTo list.linkAt list.storedHead.first.toInt chain
  /-- The head holds the last slot, unless a stray has written over it. -/
  last : slotOf? list.storedHead.last = chain.getLast? ∨
    n = 2147483648 ∧ slotOf? list.storedHead.last = none
  /-- The head counts the slots and the strays. -/
  count : list.storedHead.count = Int32.ofNat (chain.length + strays)

/-- An item can be appended if it is the one claimed last and not linked yet, neither to another
one nor as the last one. -/
def Ready (list : LinkedList) (chain : List Nat) (slot : Nat) : Prop :=
  slot + 1 = list.items.count ∧ list.linkAt slot < 0 ∧ chain.getLast? ≠ some slot

/-- The slot is beyond the list and its number is read as `-1`, as if no slot were meant, while the
list counts no item. -/
def Stray (list : LinkedList) (slot : Nat) : Prop :=
  list.items.count = 0 ∧ list.items.capacity ≤ slot ∧ (Int64.ofNat slot).toInt = -1

variable {list : LinkedList} {n strays slot : Nat} {chain : List Nat} {content : Bytes}

/-- A number that is read as `-1` with 64 bits is `-1` with 32 bits too. -/
theorem toInt_ofNat_of_stray (stray : (Int64.ofNat slot).toInt = -1) :
    (Int32.ofNat slot).toInt = -1 := by
  rw [Int64.toInt_ofNat', show (Int64.size : Nat) = 18446744073709551616 from rfl,
    Int.bmod_def] at stray
  rw [Int32.toInt_ofNat', show (Int32.size : Nat) = 4294967296 from rfl, Int.bmod_def]
  omega

/-- Counts of 32 bits go up by one. -/
theorem ofNat_succ (count : Nat) : Int32.ofNat (count + 1) = Int32.ofNat count + 1 :=
  Int32.ofNat_add count 1

/-! ### Looking at a list -/

namespace Strung

/-- The slots of a list are its chain. -/
theorem slots_eq (h : Strung list n chain strays) : list.slots = .ok chain := by
  have linked := h.linked
  rw [h.toInt_first] at linked
  refine h.toFramed.slots_eq linked (fun slot mem => h.filled.isPresent_iff.2 (h.bound slot mem)) ?_
  exact Nat.le_trans (length_le_of_sorted h.sorted h.bound)
    (Nat.le_trans h.filled.inside h.links)

/-- The last slot of the list is the one in its head. -/
theorem last_eq (h : Strung list n chain strays) :
    list.last = .ok (slotOf? list.storedHead.last) := by
  unfold LinkedList.last
  rw [h.getInt32_head headLayout_last, ok_bind]
  rfl

/-- The array counts the slots as long as the count fits. -/
theorem items_count (h : Strung list n chain strays) :
    list.items.count = if n < 2147483648 then n else 0 :=
  h.filled.count_eq h.items h.counted

/-- If there is an item before the count, the count is right. -/
theorem eq_of_next (h : Strung list n chain strays) (next : slot + 1 = list.items.count) :
    n = slot + 1 ∧ n < 2147483648 := by
  have count := h.items_count
  split at count <;> omega

/-- As long as the count fits, the last slot is that of the chain. -/
theorem last_of_lt (h : Strung list n chain strays) (countable : n < 2147483648) :
    slotOf? list.storedHead.last = chain.getLast? := by
  rcases h.last with same | ⟨limit, -⟩
  · exact same
  · omega

/-- The slots of the chain are below the capacity. -/
theorem lt_capacity (h : Strung list n chain strays) :
    ∀ other ∈ chain, other < list.items.capacity := by
  intro other mem
  exact Nat.lt_of_lt_of_le (h.bound other mem) h.filled.inside

/-- Only an item has a slot that is the last one. -/
theorem lt_of_last (h : Strung list n chain strays)
    (last : slotOf? list.storedHead.last = some slot) : slot < n := by
  rcases h.last with same | ⟨-, none⟩
  · exact h.bound slot (List.mem_of_getLast? (same.symm.trans last))
  · rw [none] at last
    cases last

/-- The index of a slot is the expected one exactly if the slot is that of the last item or a
stray. -/
theorem index_iff (h : Strung list n chain strays) (slot : Nat) :
    ((list.items.index? slot).getD Slots.emptyIndex = (list.items.count : Int) - 1 ∧
      (list.items.index? slot).getD Slots.emptyIndex = (Int64.ofNat slot).toInt) ↔
      slot + 1 = list.items.count ∨ Stray list slot := by
  have small := h.small
  unfold SlotArray.index? Stray
  by_cases inside : slot < list.items.capacity
  · have own : (Int64.ofNat slot).toInt = slot := Int64.toInt_ofNat_of_lt (by omega)
    rw [if_pos inside, Option.getD_some, own]
    constructor
    · rintro ⟨expected, found⟩
      exact Or.inl (by omega)
    · rintro (next | ⟨-, beyond, -⟩)
      · have below := (h.eq_of_next next).1
        have index := h.filled.own slot (by omega)
        omega
      · omega
  · rw [if_neg inside, Option.getD_none, Slots.emptyIndex]
    constructor
    · rintro ⟨expected, found⟩
      exact Or.inr ⟨by omega, by omega, found.symm⟩
    · rintro (next | ⟨none, -, found⟩)
      · have below := (h.eq_of_next next).1
        have room := h.filled.inside
        omega
      · omega

/-! ### Claiming and emptying the slot behind the last item -/

/-- What happens behind the last item does not concern the chain. -/
theorem putBehind (h : Strung list n chain strays) (room : n < list.items.capacity)
    (size : content.length = list.items.element.size) {m : Nat} (more : n ≤ m)
    (filled : (list.items.put n content).FilledTo m) :
    Strung (list.putItem n content) m chain strays := by
  have numbers := filled.numbers
  refine ⟨h.putItem room size, h.element, h.small, h.links, filled, h.sorted, ?_, ?_, ?_, h.count⟩
  · intro slot mem
    exact Nat.lt_of_lt_of_le (h.bound slot mem) more
  · refine h.linked.congr ?_
    intro slot mem
    have below := h.bound slot mem
    rw [h.linkAt_putItem room size, if_neg (Nat.ne_of_lt below)]
  · rcases h.last with same | ⟨limit, none⟩
    · exact Or.inl same
    · exact Or.inr ⟨by omega, none⟩

/-- A slot behind the last item is filled with its own number. -/
theorem fill (h : Strung list n chain strays) (room : n < list.items.capacity)
    (size : content.length = list.items.element.size) (countable : n < 2147483648)
    (index : Slots.readWord content 0 = n) :
    Strung (list.putItem n content) (n + 1) chain strays := by
  refine h.putBehind room size (Nat.le_succ n) (h.filled.put h.items room size room countable ?_ ?_)
  · intro other different
    omega
  · rw [if_pos (Nat.lt_succ_self n)]
    exact index

/-- A slot behind the last item may be written without putting an item there. -/
theorem keepEmpty (h : Strung list n chain strays) (room : n < list.items.capacity)
    (size : content.length = list.items.element.size)
    (index : Slots.readWord content 0 ≤ Slots.emptyIndex) :
    Strung (list.putItem n content) n chain strays := by
  refine h.putBehind room size (Nat.le_refl n)
    (h.filled.put h.items room size h.filled.inside h.filled.numbers (fun _ _ => Iff.rfl) ?_)
  rw [if_neg (Nat.lt_irrefl n)]
  exact index

/-- The slot behind the last item is claimed, unless all slots are taken. -/
theorem nextSlot_cases (h : Strung list n chain strays) :
    (list.items.Full ∧ list.nextSlot =
      .error (.capacityExceeded list.items.typeName list.items.capacity)) ∨
    ∃ m, n < list.items.capacity ∧ n ≤ m ∧ m ≤ n + 1 ∧
      list.nextSlot = .ok (n, list.putItem n (list.claimedContent n)) ∧
      Strung (list.putItem n (list.claimedContent n)) m chain strays := by
  have free := h.filled.freeSlot?_eq h.items h.counted
  by_cases room : n < list.items.capacity
  · rw [if_pos room] at free
    have size := h.length_claimedContent room
    have index := h.index_claimedContent room
    by_cases countable : n < 2147483648
    · rw [Slots.toInt_word (Slots.isWord_of_le (by omega))] at index
      exact Or.inr ⟨n + 1, room, Nat.le_succ n, Nat.le_refl _, h.nextSlot_eq free,
        h.fill room size countable index⟩
    · -- No word can hold the number of the slot, so it stays empty.
      have limit : n = 2147483648 := Nat.le_antisymm h.filled.numbers (by omega)
      have negative : Slots.readWord (list.claimedContent n) 0 ≤ Slots.emptyIndex := by
        rw [index, limit]
        decide
      exact Or.inr ⟨n, room, Nat.le_refl n, Nat.le_succ n, h.nextSlot_eq free,
        h.keepEmpty room size negative⟩
  · rw [if_neg room] at free
    have full := SlotArray.freeSlot?_eq_none_iff.1 free
    exact Or.inl ⟨full, h.nextSlot_of_full full⟩

end Strung

/-! ### Appending -/

/-- A head that fits the links of a list makes a list of it. -/
theorem Framed.strung_withHead (h : Framed list) (element : list.items.element.WellFormed)
    (small : list.items.capacity < 2 ^ 63) (links : list.items.capacity ≤ list.maxLinks)
    (filled : list.items.FilledTo n) (head : ListHead) (sorted : chain.Pairwise (· < ·))
    (bound : ∀ slot ∈ chain, slot < n) (linked : LinksTo list.linkAt head.first.toInt chain)
    (last : slotOf? head.last = chain.getLast? ∨ n = 2147483648 ∧ slotOf? head.last = none)
    (count : head.count = Int32.ofNat (chain.length + strays)) :
    list.writeHead head = .ok (list.withHead head) ∧
      Strung (list.withHead head) n chain strays := by
  have same := h.storedHead_withHead head
  refine ⟨h.writeHead_eq head, h.withHead head, element, small, links, filled, sorted, bound, ?_,
    ?_, ?_⟩
  · rw [same]
    exact linked
  · rw [same]
    exact last
  · rw [same]
    exact count

namespace Strung

/-- The items stay as they are when the last one is linked to another, but for that link. -/
theorem leading (h : Strung list n chain strays) (slot : Nat) :
    Framed (list.leading chain slot) ∧ (list.leading chain slot).items.FilledTo n ∧
      (list.leading chain slot).items.element = list.items.element ∧
      (list.leading chain slot).items.capacity = list.items.capacity ∧
      (list.leading chain slot).maxLinks = list.maxLinks := by
  unfold LinkedList.leading
  cases last : chain.getLast? with
  | none => exact ⟨h.toFramed, h.filled, rfl, rfl, rfl⟩
  | some tail =>
    have below := h.bound tail (List.mem_of_getLast? last)
    have inside := Nat.lt_of_lt_of_le below h.filled.inside
    have size := h.length_relinked inside (Int32.ofNat slot)
    refine ⟨h.putItem inside size, ?_, rfl, rfl, rfl⟩
    refine h.filled.put h.items inside size h.filled.inside h.filled.numbers (fun _ _ => Iff.rfl) ?_
    rw [if_pos below, h.index_relinked inside]
    exact h.filled.own tail below

/-- The last item is linked to another and the head is written, whatever fits both. -/
theorem strung_leading (h : Strung list n chain strays) (slot : Nat) (head : ListHead)
    {longer : List Nat} {others : Nat} (sorted : longer.Pairwise (· < ·))
    (bound : ∀ other ∈ longer, other < n)
    (linked : LinksTo (list.leading chain slot).linkAt head.first.toInt longer)
    (last : slotOf? head.last = longer.getLast? ∨ n = 2147483648 ∧ slotOf? head.last = none)
    (count : head.count = Int32.ofNat (longer.length + others)) :
    (list.leading chain slot).writeHead head = .ok ((list.leading chain slot).withHead head) ∧
      Strung ((list.leading chain slot).withHead head) n longer others ∧
      ((list.leading chain slot).withHead head).storedHead = head := by
  obtain ⟨framed, filled, element, capacity, links⟩ := h.leading slot
  obtain ⟨written, strung⟩ := framed.strung_withHead (by rw [element]; exact h.element)
    (by rw [capacity]; exact h.small) (by rw [capacity, links]; exact h.links) filled head sorted
    bound linked last count
  exact ⟨written, strung, framed.storedHead_withHead head⟩

/-- An append is refused as out of order unless the item is ready or the slot is a stray. -/
theorem append_eq (h : Strung list n chain strays) (slot : Nat) :
    (Ready list chain slot ∧ list.append slot = list.linkBehind list.storedHead slot) ∨
    (Stray list slot ∧ list.append slot = list.linkBehind list.storedHead slot) ∨
    (¬Ready list chain slot ∧ ¬Stray list slot ∧
      ∃ expected found, list.append slot = .error (.outOfOrderAppend expected found)) := by
  have order := h.index_iff slot
  rw [h.toFramed.append_eq]
  split
  · next wrong =>
    have other : ¬(slot + 1 = list.items.count ∨ Stray list slot) := by
      rw [← order]
      omega
    exact Or.inr (Or.inr ⟨fun ready => other (Or.inl ready.1), fun stray => other (Or.inr stray),
      _, _, rfl⟩)
  · next right =>
    simp only [not_or, not_not, ne_eq] at right
    rcases order.1 right with next | stray
    · obtain ⟨same, countable⟩ := h.eq_of_next next
      have present := h.filled.isPresent_iff.2 (by omega : slot < n)
      rw [h.last_of_lt countable]
      split
      · next linked =>
        refine Or.inr (Or.inr ⟨?_, fun stray => by have := stray.1; omega, _, _, rfl⟩)
        rintro ⟨-, free, different⟩
        rcases linked with linked | same
        · omega
        · exact different same
      · next free =>
        simp only [present, true_and, not_or, Int.not_le] at free
        exact Or.inl ⟨⟨next, free.1, free.2⟩, rfl⟩
    · have room := h.filled.inside
      have beyond := stray.2.1
      split
      · next linked =>
        rcases linked with ⟨present, -⟩ | last
        · have := h.filled.isPresent_iff.1 present
          omega
        · have := h.lt_of_last last
          omega
      · exact Or.inr (Or.inl ⟨stray, rfl⟩)

/-- A ready item is put at the end of the chain. -/
theorem exists_link (h : Strung list n chain strays) (ready : Ready list chain slot) :
    ∃ after, list.linkBehind list.storedHead slot = .ok after ∧
      Strung after n (chain ++ [slot]) strays ∧
      after.items = (list.leading chain slot).items ∧
      slotOf? after.storedHead.last = some slot ∧
      after.storedHead.count = list.storedHead.count + 1 ∧
      ∀ other, other ∉ chain → after.linkAt other = list.linkAt other := by
  obtain ⟨next, free, different⟩ := id ready
  obtain ⟨count, countable⟩ := h.eq_of_next next
  have link : (Int32.ofNat slot).toInt = slot := Int32.toInt_ofNat_of_lt (by omega)
  have before : ∀ other ∈ chain, other < slot :=
    lt_of_sorted h.sorted (by rw [← count]; exact h.bound) different
  have bound : ∀ other ∈ chain ++ [slot], other < n := by
    intro other mem
    rcases List.mem_append.1 mem with mem | mem
    · exact h.bound other mem
    · rw [List.mem_singleton.1 mem]
      omega
  have longer : list.storedHead.count + 1 = Int32.ofNat ((chain ++ [slot]).length + strays) := by
    rw [h.count, List.length_append, List.length_singleton, Nat.add_right_comm, ofNat_succ]
  obtain ⟨first, done, linked⟩ := h.toFramed.exists_linkBehind (by omega : slot ≤ 2147483647)
    h.sorted h.lt_capacity h.linked (h.last_of_lt countable) free different
  have ends : slotOf? (Int32.ofNat slot) = (chain ++ [slot]).getLast? := by
    rw [slotOf?_of_eq link, List.getLast?_concat]
  obtain ⟨written, strung, head⟩ := h.strung_leading slot
    ⟨first, Int32.ofNat slot, list.storedHead.count + 1⟩ (sorted_concat h.sorted before) bound
    linked (Or.inl ends) longer
  refine ⟨_, done.trans written, strung, rfl, ?_, ?_, ?_⟩
  · rw [head]
    exact slotOf?_of_eq link
  · rw [head]
  · intro other apart
    have same := h.linkAt_leading h.lt_capacity slot other
    rw [if_neg fun known => apart (List.mem_of_getLast? known)] at same
    exact same

end Strung

/-! ### Pushing -/

namespace Strung

/-- A push fills the slot behind the last item and extends the chain by it, or it fails: because
there is no such slot, or with that slot empty again. -/
theorem push_cases (h : Strung list n chain strays) (tree : Value) :
    (∃ content after, n < list.items.capacity ∧ content.length = list.items.element.size ∧
      Slots.readWord content 0 = n ∧ list.push tree = (.ok n, after) ∧
      Strung after (n + 1) (chain ++ [n]) strays ∧
      after.items = ((list.putItem n content).leading chain n).items ∧
      ∀ other, other ∉ chain → other ≠ n → after.linkAt other = list.linkAt other) ∨
    (∃ e, list.push tree = (.error e, list)) ∨
    ∃ e content, n < list.items.capacity ∧ content.length = list.items.element.size ∧
      Slots.readWord content 0 ≤ Slots.emptyIndex ∧
      (n < 2147483648 → Slots.readWord content 0 = Slots.emptyIndex) ∧
      list.push tree = (.error e, list.putItem n content) := by
  have free := h.filled.freeSlot?_eq h.items h.counted
  by_cases room : n < list.items.capacity
  · rw [if_pos room] at free
    rw [h.push_of_free h.element free]
    cases made : SlotArray.contentFor list.items.element n (entriesOf tree) with
    | error e =>
      obtain ⟨empty, size, below, exactly, same⟩ :=
        h.toFramed.exists_without room (h.length_claimedContent room)
      refine Or.inr (Or.inr ⟨e, empty, room, size, below, ?_, by rw [same]⟩)
      intro countable
      apply exactly
      rw [h.index_claimedContent room, Slots.toInt_word (Slots.isWord_of_le (by omega)),
        Slots.emptyIndex]
      omega
    | ok item =>
      have size := SlotArray.length_contentFor h.element made
      have small := h.small
      have four := h.items.starts.four_le_size
      have index := SlotArray.readWord_contentFor h.element h.items.starts (by omega) made
      have word := @Slots.isWord_readWord item 0 (by omega)
      rw [index] at word
      have filled := h.fill room size (by have := word.2; omega) index
      rcases filled.append_eq n with ⟨ready, same⟩ | ⟨stray, -⟩ | ⟨-, -, expected, found, refused⟩
      · obtain ⟨after, done, strung, items, -, -, links⟩ := filled.exists_link ready
        refine Or.inl ⟨item, after, room, size, index, by simp only [same, done], strung, items, ?_⟩
        intro other outside different
        rw [links other outside, h.linkAt_putItem room size, if_neg different]
      · exact absurd stray.2.1 (Nat.not_le.2 room)
      · obtain ⟨empty, size', below, exactly, emptied⟩ := h.toFramed.exists_without room size
        refine Or.inr (Or.inr ⟨.outOfOrderAppend expected found, empty, room, size', below, ?_,
          by simp only [refused, emptied]⟩)
        intro _
        apply exactly
        rw [index, Slots.emptyIndex]
        omega
  · rw [if_neg room] at free
    rw [push_eq, h.nextSlot_of_full (SlotArray.freeSlot?_eq_none_iff.1 free)]
    exact Or.inr (Or.inl ⟨_, rfl⟩)

end Strung

/-! ### Starting anew -/

/-- A list is emptied by clearing its items and its head. -/
theorem Framed.init_eq (h : Framed list) (element : list.items.element.WellFormed)
    (small : list.items.capacity < 2 ^ 63) (links : list.items.capacity ≤ list.maxLinks) :
    ∃ after, list.init = .ok after ∧ Strung after 0 [] 0 ∧ after.items = list.items.clear := by
  have cleared : Framed { list with items := list.items.clear } :=
    ⟨h.items.clear, h.items.counted_clear, h.next, h.apart, h.layout, h.length⟩
  have filled : list.items.clear.FilledTo 0 :=
    ⟨Nat.zero_le _, by decide, fun _ below => absurd below (Nat.not_lt_zero _),
      fun slot inside _ => Int.le_of_eq (h.items.index_clear inside)⟩
  have none : ListHead.empty.count = Int32.ofNat (([] : List Nat).length + 0) := rfl
  obtain ⟨written, strung⟩ := cleared.strung_withHead element small links filled .empty .nil
    (by simp) (show ListHead.empty.first.toInt < 0 by decide) (Or.inl rfl) none
  exact ⟨_, written, strung, rfl⟩

end DeviceBlob.LinkedList
