import DeviceBlob.Proofs.LinkedList.Walk
import DeviceBlob.Proofs.PackedArray

/-!
# What the operations on a linked list write

A list is `Framed` if its items have links and its head has three words, whatever these say.  That
is enough to know what each operation writes: a link (`Framed.setNext_eq`), the head
(`Framed.writeHead_eq`), a claimed slot (`Framed.nextSlot_eq`), and when an append is refused
(`Framed.append_eq`).  Links that lead along a `chain` of slots (`LinksTo`) are followed to its end
(`Framed.slots_eq`), and an append makes the chain longer by one slot (`Framed.exists_linkBehind`).
-/

namespace DeviceBlob.LinkedList

/-- The layout of a head that holds nothing else. -/
def headLayout : Layout :=
  .record "ListHead" (ListHead.fieldNames.map fun name => (name, .scalar .int32))

/-- A walk from the given link on meets the given slots one by one. -/
def LinksTo (next : Nat → Int) : Int → List Nat → Prop
  | link, [] => link < 0
  | link, slot :: rest => link = slot ∧ LinksTo next (next slot) rest

/-- A list has items with links and a head of three words, whatever the links and the head say. -/
structure Framed (list : LinkedList) : Prop where
  /-- The items have all their bytes. -/
  items : list.items.Whole
  /-- The number of items is known, claimed or linked. -/
  counted : Slots.Counted list.items.capacity list.items.element list.items.bytes
  /-- An item has a link. -/
  next : list.items.element.HasWord DataType.nextField (nextOffset list.items.element)
  /-- The link is not the index. -/
  apart : 4 ≤ nextOffset list.items.element
  /-- The head has the fields of a head. -/
  layout : list.head.layout = headLayout
  /-- The head is complete. -/
  length : list.head.bytes.length = 12

/-! ### Chains -/

section Chain

variable {next other : Nat → Int} {link : Int} {chain : List Nat} {tail slot : Nat}

/-- A chain depends on the links of its own slots only. -/
theorem LinksTo.congr : ∀ {link : Int} {chain : List Nat}, LinksTo next link chain →
    (∀ slot ∈ chain, other slot = next slot) → LinksTo other link chain
  | _, [], h, _ => h
  | _, slot :: _, ⟨here, there⟩, same => by
    refine ⟨here, ?_⟩
    rw [same slot List.mem_cons_self]
    exact there.congr fun other mem => same other (List.mem_cons_of_mem _ mem)

/-- The link of the last slot leads nowhere. -/
theorem LinksTo.next_tail : ∀ {link : Int} {chain : List Nat},
    LinksTo next link (chain ++ [tail]) → next tail < 0
  | _, [], h => h.2
  | _, _ :: _, h => LinksTo.next_tail h.2

/-- The links of all slots but the last one lead somewhere. -/
theorem LinksTo.next_nonneg : ∀ {link : Int} {chain : List Nat}, LinksTo next link chain →
    slot ∈ chain → chain.getLast? ≠ some slot → 0 ≤ next slot
  | _, [first], _, mem, last => by
    rw [List.mem_singleton.1 mem] at last
    exact absurd rfl last
  | _, first :: second :: rest, ⟨_, there⟩, mem, last => by
    rcases List.mem_cons.1 mem with rfl | mem
    · rw [there.1]
      omega
    · rw [List.getLast?_cons_cons] at last
      exact there.next_nonneg mem last

/-- A chain stays as it is if the link of its last slot still leads nowhere. -/
theorem LinksTo.stop : ∀ {link : Int} {chain : List Nat}, LinksTo next link (chain ++ [tail]) →
    (∀ slot ∈ chain, other slot = next slot) → other tail < 0 → LinksTo other link (chain ++ [tail])
  | _, [], ⟨here, _⟩, _, ends => ⟨here, ends⟩
  | _, first :: _, ⟨here, there⟩, same, ends => by
    refine ⟨here, ?_⟩
    rw [same first List.mem_cons_self]
    exact there.stop (fun slot mem => same slot (List.mem_cons_of_mem _ mem)) ends

/-- A chain is extended by setting the link of its last slot. -/
theorem LinksTo.extend : ∀ {link : Int} {chain : List Nat}, LinksTo next link (chain ++ [tail]) →
    (∀ slot ∈ chain, other slot = next slot) → other tail = slot → other slot < 0 →
      LinksTo other link (chain ++ [tail] ++ [slot])
  | _, [], ⟨here, _⟩, _, step, stop => ⟨here, step, stop⟩
  | _, first :: _, ⟨here, there⟩, same, step, stop => by
    refine ⟨here, ?_⟩
    rw [same first List.mem_cons_self]
    exact there.extend (fun slot mem => same slot (List.mem_cons_of_mem _ mem)) step stop

/-- A chain starts with the slot of its first link. -/
theorem LinksTo.head? (h : LinksTo next link chain) :
    (if 0 ≤ link then some link.toNat else none) = chain.head? := by
  cases chain with
  | nil =>
    have negative : link < 0 := h
    rw [if_neg (by omega)]
    rfl
  | cons slot rest =>
    obtain ⟨rfl, -⟩ := h
    simp

end Chain

/-- Increasing numbers below a bound are not more than the bound. -/
theorem length_le_of_sorted {chain : List Nat} {bound : Nat} (sorted : chain.Pairwise (· < ·))
    (below : ∀ slot ∈ chain, slot < bound) : chain.length ≤ bound :=
  Slots.length_le_of_nodup (sorted.imp fun before => Nat.ne_of_lt before) below

/-- The last of increasing numbers tells that all of them are below a bound. -/
theorem lt_of_sorted {chain : List Nat} {slot : Nat} (sorted : chain.Pairwise (· < ·))
    (below : ∀ other ∈ chain, other < slot + 1) (different : chain.getLast? ≠ some slot) :
    ∀ other ∈ chain, other < slot := by
  intro other mem
  have bound := below other mem
  rcases List.eq_nil_or_concat chain with rfl | ⟨front, tail, rfl⟩
  · cases mem
  · rw [List.concat_eq_append] at *
    have tail_below := below tail (by simp)
    have tail_ne : tail ≠ slot := by simpa using different
    obtain ⟨-, -, before⟩ := List.pairwise_append.1 sorted
    rcases List.mem_append.1 mem with mem | mem
    · have := before other mem tail (by simp)
      omega
    · have : other = tail := by simpa using mem
      omega

/-- A slot behind all others goes to the end of an ascending chain. -/
theorem sorted_concat {chain : List Nat} {slot : Nat} (sorted : chain.Pairwise (· < ·))
    (before : ∀ other ∈ chain, other < slot) : (chain ++ [slot]).Pairwise (· < ·) := by
  refine List.pairwise_append.2 ⟨sorted, List.pairwise_singleton _ _, ?_⟩
  intro other mem last same
  rw [List.mem_singleton.1 same]
  exact before other mem

/-! ### The head -/

/-- The bytes of a head with other contents. -/
def headBytes (bytes : Bytes) (head : ListHead) : Bytes :=
  Slots.writeWord (Slots.writeWord (Slots.writeWord bytes 0 head.first.toInt) 4 head.last.toInt) 8
    head.count.toInt

/-- The first slot is the first word of the head. -/
theorem headLayout_first : headLayout.HasWord "first" 0 := ⟨rfl, by decide⟩

/-- The last slot is the second word. -/
theorem headLayout_last : headLayout.HasWord "last" 4 := ⟨rfl, by decide⟩

/-- The count is the third word. -/
theorem headLayout_count : headLayout.HasWord "count" 8 := ⟨rfl, by decide⟩

/-- Numbers of 32 bits are words. -/
theorem isWord_toInt (n : Int32) : Slots.IsWord n.toInt := by
  have low := n.le_toInt
  have high := n.toInt_lt
  unfold Slots.IsWord
  omega

section HeadBytes

variable {bytes : Bytes} (length : bytes.length = 12) (head : ListHead)
include length

/-- Writing the three words keeps the length of the head. -/
theorem length_headBytes : (headBytes bytes head).length = 12 := by
  have one : (Slots.writeWord bytes 0 head.first.toInt).length = 12 := by
    rw [Slots.length_writeWord (by omega), length]
  have two : (Slots.writeWord (Slots.writeWord bytes 0 head.first.toInt) 4
      head.last.toInt).length = 12 := by
    rw [Slots.length_writeWord (by omega), one]
  rw [headBytes, Slots.length_writeWord (by omega), two]

/-- A head is read as it was written. -/
theorem readWord_headBytes :
    Slots.readWord (headBytes bytes head) 0 = head.first.toInt ∧
    Slots.readWord (headBytes bytes head) 4 = head.last.toInt ∧
    Slots.readWord (headBytes bytes head) 8 = head.count.toInt := by
  have one : (Slots.writeWord bytes 0 head.first.toInt).length = 12 := by
    rw [Slots.length_writeWord (by omega), length]
  have two : (Slots.writeWord (Slots.writeWord bytes 0 head.first.toInt) 4
      head.last.toInt).length = 12 := by
    rw [Slots.length_writeWord (by omega), one]
  refine ⟨?_, ?_, ?_⟩
  · rw [headBytes, Slots.readWord_writeWord_apart (by omega) (by omega),
      Slots.readWord_writeWord_apart (by omega) (by omega),
      Slots.readWord_writeWord (by omega) (isWord_toInt _)]
  · rw [headBytes, Slots.readWord_writeWord_apart (by omega) (by omega),
      Slots.readWord_writeWord (by omega) (isWord_toInt _)]
  · rw [headBytes, Slots.readWord_writeWord (by omega) (isWord_toInt _)]

end HeadBytes

/-- The head as its bytes have it. -/
def storedHead (list : LinkedList) : ListHead :=
  ⟨Int32.ofInt (Slots.readWord list.head.bytes 0), Int32.ofInt (Slots.readWord list.head.bytes 4),
    Int32.ofInt (Slots.readWord list.head.bytes 8)⟩

/-- The list with another head. -/
def withHead (list : LinkedList) (head : ListHead) : LinkedList :=
  { list with head := ⟨headLayout, headBytes list.head.bytes head⟩ }

namespace Framed

variable {list : LinkedList}

/-- A field of the head reads as the word at its offset. -/
theorem getInt32_head (h : Framed list) {name : String} {offset : Nat}
    (word : headLayout.HasWord name offset) :
    list.head.getInt32 name = .ok (Int32.ofInt (Slots.readWord list.head.bytes offset)) := by
  refine Blob.getInt32_eq (h.layout ▸ word) ?_
  rw [h.layout, h.length]
  decide

/-- A head can always be read. -/
theorem readHead_eq (h : Framed list) : list.readHead = .ok list.storedHead := by
  unfold readHead
  rw [h.getInt32_head headLayout_first, h.getInt32_head headLayout_last,
    h.getInt32_head headLayout_count]
  rfl

/-- A head can always be written. -/
theorem writeHead_eq (h : Framed list) (head : ListHead) :
    list.writeHead head = .ok (list.withHead head) := by
  obtain ⟨items, ⟨layout, bytes⟩, maxLinks⟩ := list
  have layout : layout = headLayout := h.layout
  subst layout
  unfold writeHead withHead headBytes
  rw [Blob.set_int32_eq headLayout_first, ok_bind, Blob.set_int32_eq headLayout_last, ok_bind,
    Blob.set_int32_eq headLayout_count]
  rfl

/-- Another head leaves the list framed. -/
theorem withHead (h : Framed list) (head : ListHead) : Framed (list.withHead head) :=
  ⟨h.items, h.counted, h.next, h.apart, rfl, length_headBytes h.length head⟩

/-- The words of the head are read back as they were stored. -/
theorem readWord_withHead (h : Framed list) (head : ListHead) :
    Slots.readWord (list.withHead head).head.bytes 0 = head.first.toInt ∧
    Slots.readWord (list.withHead head).head.bytes 4 = head.last.toInt ∧
    Slots.readWord (list.withHead head).head.bytes 8 = head.count.toInt :=
  readWord_headBytes h.length head

/-- A head is read as it was written. -/
theorem storedHead_withHead (h : Framed list) (head : ListHead) :
    (list.withHead head).storedHead = head := by
  obtain ⟨first, last, count⟩ := h.readWord_withHead head
  unfold storedHead
  rw [first, last, count, Int32.ofInt_toInt, Int32.ofInt_toInt, Int32.ofInt_toInt]

/-- The first slot of the stored head is the word in front. -/
theorem toInt_first (h : Framed list) :
    list.storedHead.first.toInt = Slots.readWord list.head.bytes 0 :=
  Blob.toInt_ofInt_readWord (h.layout ▸ headLayout_first) (by rw [h.layout, h.length]; decide)

end Framed

/-! ### Items and their links -/

/-- The list with other bytes in the slot of an item. -/
def putItem (list : LinkedList) (slot : Nat) (content : Bytes) : LinkedList :=
  { list with items := list.items.put slot content }

/-- The bytes of a slot with another link. -/
def relinked (list : LinkedList) (slot : Nat) (link : Int32) : Bytes :=
  Slots.writeWord (Slots.slot list.items.element list.items.bytes slot)
    (nextOffset list.items.element) link.toInt

/-- The bytes of a slot that was claimed: it has its number as its index and no link. -/
def claimedContent (list : LinkedList) (slot : Nat) : Bytes :=
  Slots.writeWord
    (Slots.writeWord (Slots.slot list.items.element list.items.bytes slot) 0 slot)
    (nextOffset list.items.element) (-1)

namespace Framed

variable {list : LinkedList} {slot : Nat} {content : Bytes}

/-- A framed list can be walked without reading outside of its bytes. -/
theorem walkable (h : Framed list) : Walkable list := ⟨h.items.room, h.next⟩

/-- Content of the right size in a slot leaves the list framed. -/
theorem putItem (h : Framed list) (inside : slot < list.items.capacity)
    (size : content.length = list.items.element.size) : Framed (list.putItem slot content) :=
  ⟨h.items.put inside size, h.items.counted_put inside size, h.next, h.apart, h.layout, h.length⟩

/-- Of two writes to one slot the second is what stays. -/
theorem putItem_putItem {second : Bytes} (h : Framed list) (inside : slot < list.items.capacity)
    (size : content.length = list.items.element.size)
    (size' : second.length = list.items.element.size) :
    (list.putItem slot content).putItem slot second = list.putItem slot second := by
  unfold LinkedList.putItem
  simp only [SlotArray.put_put h.items.room inside size size']

/-- Only the link of the item itself depends on its bytes. -/
theorem linkAt_putItem (h : Framed list) (inside : slot < list.items.capacity)
    (size : content.length = list.items.element.size) (other : Nat) :
    (list.putItem slot content).linkAt other =
      if other = slot then Slots.readWord content (nextOffset list.items.element)
      else list.linkAt other := by
  unfold linkAt LinkedList.putItem
  rw [SlotArray.put_element]
  by_cases same : other = slot
  · rw [if_pos same, same, SlotArray.slot_put_same h.items.room inside size]
  · rw [if_neg same, SlotArray.slot_put_other h.items.room inside size same]

/-- A slot with another link has the bytes of an element. -/
theorem length_relinked (h : Framed list) (inside : slot < list.items.capacity) (link : Int32) :
    (list.relinked slot link).length = list.items.element.size := by
  have length := Slots.length_slot h.items.room inside
  have room := h.next.2
  rw [relinked, Slots.length_writeWord (by omega), length]

/-- Another link leaves the index of an item as it was. -/
theorem index_relinked (h : Framed list) (inside : slot < list.items.capacity) (link : Int32) :
    Slots.readWord (list.relinked slot link) 0 =
      Slots.indexAt list.items.element list.items.bytes slot := by
  have length := Slots.length_slot h.items.room inside
  have room := h.next.2
  have apart := h.apart
  rw [relinked, Slots.readWord_writeWord_apart (by omega) (by omega),
    Slots.indexAt_eq_readWord_slot h.items.starts.four_le_size]

/-- A slot with another link reads as that link. -/
theorem next_relinked (h : Framed list) (inside : slot < list.items.capacity) (link : Int32) :
    Slots.readWord (list.relinked slot link) (nextOffset list.items.element) = link.toInt := by
  have length := Slots.length_slot h.items.room inside
  have room := h.next.2
  rw [relinked, Slots.readWord_writeWord (by omega) (isWord_toInt link)]

/-- The link of an item can always be set. -/
theorem setNext_eq (h : Framed list) (inside : slot < list.items.capacity) (link : Int32) :
    list.setNext slot link = .ok (list.putItem slot (list.relinked slot link)) := by
  have word : (list.items.slotBlob slot).layout.HasWord DataType.nextField
      (nextOffset list.items.element) := h.next
  have put := h.items.setSlot_eq_put h.counted inside (h.length_relinked inside link)
    (h.index_relinked inside link)
  unfold setNext SlotArray.checkSlot
  rw [if_pos inside, ok_bind, Blob.set_int32_eq word, ok_bind]
  unfold LinkedList.putItem
  rw [← put]
  rfl

/-- The link of an item can always be read. -/
theorem getInt32_next (h : Framed list) (inside : slot < list.items.capacity) :
    (list.items.slotBlob slot).getInt32 DataType.nextField =
      .ok (Int32.ofInt (list.linkAt slot)) :=
  h.walkable.getInt32_next inside

/-- The link of a slot is a number of 32 bits. -/
theorem toInt_linkAt (h : Framed list) (inside : slot < list.items.capacity) :
    (Int32.ofInt (list.linkAt slot)).toInt = list.linkAt slot :=
  h.walkable.toInt_linkAt inside

/-- A slot that is claimed has the bytes of an element. -/
theorem length_claimedContent (h : Framed list) (inside : slot < list.items.capacity) :
    (list.claimedContent slot).length = list.items.element.size := by
  have marked := h.items.length_marked inside slot
  have room := h.next.2
  rw [claimedContent, Slots.length_writeWord (by omega), marked]

/-- A claimed slot has its number as its index, as far as a word can hold it. -/
theorem index_claimedContent (h : Framed list) (inside : slot < list.items.capacity) :
    Slots.readWord (list.claimedContent slot) 0 = Bytes.toInt (.ofInt Slots.wordSize slot) := by
  have length := Slots.length_slot h.items.room inside
  have marked := h.items.length_marked inside slot
  have room := h.next.2
  have apart := h.apart
  rw [claimedContent, Slots.readWord_writeWord_apart (by omega) (by omega),
    Slots.readWord_writeWord_eq (by omega)]

/-- A slot that is claimed is linked to nothing. -/
theorem next_claimedContent (h : Framed list) (inside : slot < list.items.capacity) :
    Slots.readWord (list.claimedContent slot) (nextOffset list.items.element) = -1 := by
  have marked := h.items.length_marked inside slot
  have room := h.next.2
  exact Slots.readWord_writeWord (by omega) Slots.isWord_emptyIndex

/-- The slot that is claimed is the free one. -/
theorem nextSlot_eq (h : Framed list) (free : list.items.freeSlot? = some slot) :
    list.nextSlot = .ok (slot, list.putItem slot (list.claimedContent slot)) := by
  obtain ⟨inside, -⟩ := SlotArray.freeSlot?_eq_some free
  have marked := h.items.length_marked inside slot
  have claimed := h.putItem inside marked
  have relinked : (list.putItem slot (Slots.writeWord
      (Slots.slot list.items.element list.items.bytes slot) 0 slot)).relinked slot (-1) =
        list.claimedContent slot := by
    unfold LinkedList.relinked LinkedList.putItem
    rw [SlotArray.put_element, SlotArray.slot_put_same h.items.room inside marked]
    rfl
  unfold nextSlot
  rw [SlotArray.nextSlot_of_freeSlot free, ok_bind, h.items.mark_eq_put inside]
  simp only
  rw [← LinkedList.putItem, claimed.setNext_eq inside, ok_bind, relinked,
    h.putItem_putItem inside marked (h.length_claimedContent inside)]
  rfl

/-- A full array has no slot to claim. -/
theorem nextSlot_of_full (_h : Framed list) (full : list.items.Full) : list.nextSlot =
    .error (.capacityExceeded list.items.typeName list.items.capacity) := by
  unfold nextSlot
  rw [SlotArray.nextSlot_of_full full]
  rfl

end Framed

/-! ### Walking along a chain -/

variable {list : LinkedList} {chain : List Nat} {slot : Nat} {content : Bytes}

/-- A walk along a chain of items meets all of it. -/
theorem LinksTo.exists_meets : ∀ {chain : List Nat} {link : Int}, LinksTo list.linkAt link chain →
    (∀ slot ∈ chain, list.items.isPresent slot = true) → ∃ last < 0, Meets list link chain last
  | [], link, ends, _ => ⟨link, ends, rfl⟩
  | slot :: rest, _, ⟨here, there⟩, present => by
    obtain ⟨last, ends, met⟩ :=
      there.exists_meets fun other mem => present other (List.mem_cons_of_mem _ mem)
    exact ⟨last, ends, here, present slot List.mem_cons_self, met⟩

/-- The slots of a list are those that its links lead to. -/
theorem Framed.slots_eq (h : Framed list)
    (linked : LinksTo list.linkAt (Slots.readWord list.head.bytes 0) chain)
    (present : ∀ slot ∈ chain, list.items.isPresent slot = true)
    (enough : chain.length ≤ list.maxLinks) : list.slots = .ok chain := by
  rw [← h.toInt_first] at linked
  obtain ⟨last, ends, met⟩ := linked.exists_meets present
  rw [slots_of_readHead h.readHead_eq]
  exact h.walkable.walk_eq_ok met ends enough

/-! ### Appending -/

/-- The list with an item behind its last one, where the list has the given head. -/
def linkBehind (list : LinkedList) (head : ListHead) (slot : Nat) : Except Error LinkedList :=
  match slotOf? head.last with
  | some tail => do
    let linked ← list.setNext tail (Int32.ofNat slot)
    linked.writeHead ⟨head.first, Int32.ofNat slot, head.count + 1⟩
  | none => list.writeHead ⟨Int32.ofNat slot, Int32.ofNat slot, head.count + 1⟩

/-- The list with the last item of a chain linked to a slot, if the chain has an item. -/
def leading (list : LinkedList) (chain : List Nat) (slot : Nat) : LinkedList :=
  match chain.getLast? with
  | some tail => list.putItem tail (list.relinked tail (Int32.ofNat slot))
  | none => list

namespace Framed

/-- A slot is linked when it is present and its link names a slot. -/
theorem isLinked_eq (h : Framed list) : list.isLinked slot =
    .ok (list.items.isPresent slot && decide (0 ≤ list.linkAt slot)) := by
  unfold isLinked
  cases present : list.items.isPresent slot with
  | false =>
    have item : list.items.get? slot = none := by
      rw [SlotArray.get?, present, if_neg Bool.false_ne_true]
    rw [item]
    rfl
  | true =>
    obtain ⟨inside, -⟩ := SlotArray.isPresent_iff.1 present
    have item : list.items.get? slot = some (list.items.slotBlob slot) := by
      rw [SlotArray.get?, if_pos present]
    have link := h.toInt_linkAt inside
    simp only [item, h.getInt32_next inside, ok_bind, Bool.true_and]
    unfold slotOf?
    rw [link]
    split
    · next linked => simp [linked, pure, Except.pure]
    · next free => simp [free, pure, Except.pure]

/-- An append is refused as out of order or put behind the last item. -/
theorem append_eq (h : Framed list) (slot : Nat) :
    list.append slot =
      if (list.items.index? slot).getD Slots.emptyIndex ≠ (list.items.count : Int) - 1 ∨
          (list.items.index? slot).getD Slots.emptyIndex ≠ (Int64.ofNat slot).toInt then
        .error (.outOfOrderAppend (list.items.count - 1)
          ((list.items.index? slot).getD Slots.emptyIndex))
      else if (list.items.isPresent slot = true ∧ 0 ≤ list.linkAt slot) ∨
          slotOf? list.storedHead.last = some slot then
        .error (.outOfOrderAppend (list.items.count - 1 + 1)
          ((list.items.index? slot).getD Slots.emptyIndex))
      else list.linkBehind list.storedHead slot := by
  unfold append
  simp only [h.readHead_eq, h.isLinked_eq, ok_bind, Bool.and_eq_true, decide_eq_true_eq]
  split
  · rfl
  · split
    · rfl
    · rfl

/-- Only the link of the last item of a chain is set. -/
theorem linkAt_leading (h : Framed list) (inside : ∀ other ∈ chain, other < list.items.capacity)
    (slot other : Nat) : (list.leading chain slot).linkAt other =
      if chain.getLast? = some other then (Int32.ofNat slot).toInt else list.linkAt other := by
  unfold leading
  cases last : chain.getLast? with
  | none => rfl
  | some tail =>
    have room := inside tail (List.mem_of_getLast? last)
    simp only [h.linkAt_putItem room (h.length_relinked room _), h.next_relinked room,
      Option.some.injEq, eq_comm]

/-- Where the head knows the last item of a chain, it is that item whose link is set. -/
theorem linkBehind_of_last (h : Framed list) {head : ListHead} {tail : Nat}
    (inside : tail < list.items.capacity) (last : slotOf? head.last = some tail)
    (same : chain.getLast? = some tail) : list.linkBehind head slot =
      (list.leading chain slot).writeHead ⟨head.first, Int32.ofNat slot, head.count + 1⟩ := by
  unfold linkBehind leading
  rw [last, same]
  simp only [h.setNext_eq inside, ok_bind]

/-- An item that is not linked yet is put behind the last item of a chain. -/
theorem exists_linkBehind (h : Framed list) {head : ListHead} (small : slot ≤ 2147483647)
    (sorted : chain.Pairwise (· < ·)) (inside : ∀ other ∈ chain, other < list.items.capacity)
    (linked : LinksTo list.linkAt head.first.toInt chain)
    (last : slotOf? head.last = chain.getLast?) (free : list.linkAt slot < 0)
    (different : chain.getLast? ≠ some slot) :
    ∃ first, list.linkBehind head slot =
        (list.leading chain slot).writeHead ⟨first, Int32.ofNat slot, head.count + 1⟩ ∧
      LinksTo (list.leading chain slot).linkAt first.toInt (chain ++ [slot]) := by
  have link : (Int32.ofNat slot).toInt = slot := Int32.toInt_ofNat_of_lt (by omega)
  have links := h.linkAt_leading inside slot
  have stop : (list.leading chain slot).linkAt slot < 0 := by
    rw [links, if_neg different]
    exact free
  rcases List.eq_nil_or_concat chain with rfl | ⟨front, tail, split⟩
  · refine ⟨Int32.ofNat slot, ?_, link, stop⟩
    unfold linkBehind
    rw [last]
    rfl
  · rw [List.concat_eq_append] at split
    subst split
    have known := List.getLast?_concat (a := tail) (l := front)
    obtain ⟨-, -, before⟩ := List.pairwise_append.1 sorted
    refine ⟨head.first, h.linkBehind_of_last (inside tail (by simp)) (last.trans known) known,
      linked.extend ?_ ?_ stop⟩
    · intro other mem
      have := before other mem tail (by simp)
      rw [links, known, if_neg (by simp; omega)]
    · rw [links, if_pos known, link]

end Framed

/-! ### Pushing -/

/-- The list with an empty slot, if there is such a slot. -/
def without (list : LinkedList) (slot : Nat) : LinkedList :=
  match list.items.remove slot with
  | .ok (_, items) => { list with items := items }
  | .error _ => list

/-- A push claims a slot, fills it and appends it; where filling fails, the claim is taken back. -/
theorem push_eq (list : LinkedList) (tree : Value) : list.push tree =
    match list.nextSlot with
    | .error e => (.error e, list)
    | .ok (slot, claimed) =>
      match claimed.items.writeSlot slot (entriesOf tree) with
      | .error e => (.error e, claimed.without slot)
      | .ok items =>
        match { claimed with items := items }.append slot with
        | .error e => (.error e, { claimed with items := items }.without slot)
        | .ok linked => (.ok slot, linked) := rfl

namespace Framed

/-- An item is taken away by emptying its slot. -/
theorem without_putItem (h : Framed list) (inside : slot < list.items.capacity)
    (size : content.length = list.items.element.size)
    (present : Slots.emptyIndex < Slots.readWord content 0) :
    (list.putItem slot content).without slot =
      list.putItem slot (Slots.writeWord content 0 Slots.emptyIndex) := by
  have four := h.items.starts.four_le_size
  have here : (list.putItem slot content).items.isPresent slot = true :=
    (h.items.isPresent_put inside size slot).trans (by rw [if_pos rfl, decide_eq_true present])
  have emptied : (Slots.writeWord content 0 Slots.emptyIndex).length = list.items.element.size := by
    rw [Slots.length_writeWord (by omega), size]
  have held : Slots.slot (list.putItem slot content).items.element
      (list.putItem slot content).items.bytes slot = content :=
    SlotArray.slot_put_same h.items.room inside size
  have marked := (h.putItem inside size).items.mark_eq_put inside Slots.emptyIndex
  rw [held] at marked
  rw [← h.putItem_putItem inside size emptied]
  unfold without
  rw [SlotArray.remove_of_isPresent here, marked]
  rfl

/-- An item is taken away by emptying its slot, if there is one. -/
theorem exists_without (h : Framed list) (inside : slot < list.items.capacity)
    (size : content.length = list.items.element.size) :
    ∃ emptied, emptied.length = list.items.element.size ∧
      Slots.readWord emptied 0 ≤ Slots.emptyIndex ∧
      (Slots.emptyIndex < Slots.readWord content 0 →
        Slots.readWord emptied 0 = Slots.emptyIndex) ∧
      (list.putItem slot content).without slot = list.putItem slot emptied := by
  have four := h.items.starts.four_le_size
  by_cases present : Slots.emptyIndex < Slots.readWord content 0
  · have index : Slots.readWord (Slots.writeWord content 0 Slots.emptyIndex) 0 =
        Slots.emptyIndex := Slots.readWord_writeWord (by omega) Slots.isWord_emptyIndex
    refine ⟨_, ?_, Int.le_of_eq index, fun _ => index, h.without_putItem inside size present⟩
    rw [Slots.length_writeWord (by omega), size]
  · have absent : (list.putItem slot content).items.isPresent slot = false :=
      (h.items.isPresent_put inside size slot).trans (by rw [if_pos rfl, decide_eq_false present])
    have same : (list.putItem slot content).items.remove slot =
        .ok (false, (list.putItem slot content).items) :=
      SlotArray.remove_of_not_isPresent inside absent
    refine ⟨content, size, Int.not_lt.1 present, fun here => absurd here present, ?_⟩
    unfold without
    rw [same]

/-- A push writes the item into the free slot and appends it, or empties that slot again. -/
theorem push_of_free (h : Framed list) (formed : list.items.element.WellFormed)
    (free : list.items.freeSlot? = some slot) (tree : Value) : list.push tree =
      match SlotArray.contentFor list.items.element slot (entriesOf tree) with
      | .error e => (.error e, (list.putItem slot (list.claimedContent slot)).without slot)
      | .ok item =>
        match (list.putItem slot item).append slot with
        | .error e => (.error e, (list.putItem slot item).without slot)
        | .ok linked => (.ok slot, linked) := by
  obtain ⟨inside, -⟩ := SlotArray.freeSlot?_eq_some free
  rw [push_eq, h.nextSlot_eq free]
  simp only
  cases written : (list.putItem slot (list.claimedContent slot)).items.writeSlot slot
      (entriesOf tree) with
  | error e =>
    have refused : SlotArray.contentFor list.items.element slot (entriesOf tree) = .error e :=
      @SlotArray.writeSlot_eq_error (list.putItem slot (list.claimedContent slot)).items slot _ e
        inside written
    rw [refused]
  | ok items =>
    -- The item is written over the claimed slot, as if it had been put there at once.
    obtain ⟨-, item, made, rfl⟩ := SlotArray.writeSlot_eq_ok_iff.1 written
    have made : SlotArray.contentFor list.items.element slot (entriesOf tree) = .ok item := made
    have filled : (⟨(list.putItem slot (list.claimedContent slot)).items.put slot item,
        (list.putItem slot (list.claimedContent slot)).head,
        (list.putItem slot (list.claimedContent slot)).maxLinks⟩ : LinkedList) =
          list.putItem slot item :=
      h.putItem_putItem inside (h.length_claimedContent inside)
        (SlotArray.length_contentFor formed made)
    rw [made]
    simp only [filled]

end Framed

/-! ### Allocated lists -/

/-- An element that was checked for its link has it behind its index. -/
theorem hasWord_of_checkWord {element : Layout} (starts : element.StartsWithIndex)
    (h : checkWord element DataType.nextField = .ok ()) :
    element.HasWord DataType.nextField (nextOffset element) ∧ 4 ≤ nextOffset element := by
  obtain ⟨offset, held, same⟩ := exists_hasWord_of_checkWord h
  obtain rfl : nextOffset element = offset := same
  refine ⟨held, ?_⟩
  obtain ⟨record, rest, rfl⟩ := starts
  rcases List.mem_cons.1 (List.mem_of_find?_eq_some held.1) with index | behind
  · have named : DataType.nextField = DataType.indexField := congrArg Field.name index
    exact absurd named (by decide)
  · exact (Layout.bounds_of_mem_placeAccessors behind).1

/-- Every compiler lays the head out in the same three words. -/
theorem plainLayout_head (compiler : Compiler) :
    compiler.plainLayout ListHead.type = .ok headLayout := by
  obtain ⟨packing, maxParameter⟩ := compiler
  cases packing <;> rfl

/-- A list is allocated from blank items with links and a blank head, and then emptied. -/
theorem framed_of_allocate {compiler : Compiler} {type : DataType} {capacity : Nat}
    {itemParams : Params} {start : LinkedList} (buildable : type.Buildable)
    (allocated : allocate compiler type capacity itemParams = .ok start) :
    ∃ list, Framed list ∧ list.init = .ok start ∧ list.items.capacity ≤ list.maxLinks ∧
      SlotArray.allocate compiler type capacity itemParams = .ok list.items := by
  simp only [allocate, plainLayout_head, ok_bind, bind_eq_ok] at allocated
  obtain ⟨items, made, list, parts, started⟩ := allocated
  unfold ofParts at parts
  simp only [bind_eq_ok] at parts
  obtain ⟨⟨⟩, linked, ⟨⟩, -, same⟩ := parts
  cases same
  obtain ⟨formed, blank, -, most⟩ := SlotArray.blank_of_allocate buildable made
  obtain ⟨next, apart⟩ := hasWord_of_checkWord formed.1 linked
  have whole : items.Whole := ⟨formed.1, by rw [blank]; exact Layout.length_blank formed⟩
  have counted : Slots.Counted items.capacity items.element items.bytes := by
    rw [blank]
    exact Layout.counted_blank formed
  exact ⟨⟨items, Blob.allocate headLayout, compiler.maxParameter⟩,
    ⟨whole, counted, next, apart, rfl, rfl⟩, started, most, made⟩

end DeviceBlob.LinkedList
