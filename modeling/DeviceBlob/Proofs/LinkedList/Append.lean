import DeviceBlob.Proofs.LinkedList

/-!
# Which slots can be appended

In a `Linking` list the items that are not in the chain have no link, so that an item can be
appended exactly if it was claimed last and is not in the list (`Linking.appendable_iff`).  The one
other number of 64 bits that an append accepts is a stray: it links nothing, but the head counts it
(`Strung.exists_stray`).  Every operation keeps a list linking (`Linking.perform`).  Main statement:
`append_of_run`.
-/

namespace DeviceBlob.LinkedList

/-- A list of which the items that are not in the chain have no link. -/
structure Linking (list : LinkedList) (n : Nat) (chain : List Nat) (strays : Nat) : Prop
    extends Strung list n chain strays where
  /-- What is claimed and not linked has no link, unless there are too many items to count. -/
  loose : n < 2147483648 → ∀ slot < n, slot ∉ chain → list.linkAt slot < 0

variable {list : LinkedList} {n strays slot : Nat} {chain : List Nat} {content : Bytes}

/-- A number of 64 bits that is read as `-1` is the last one. -/
theorem toInt_eq_neg_one_iff (word : slot < 2 ^ 64) :
    (Int64.ofNat slot).toInt = -1 ↔ slot = 18446744073709551615 := by
  rw [Int64.toInt_ofNat', show (Int64.size : Nat) = 18446744073709551616 from rfl, Int.bmod_def]
  omega

/-! ### Claiming and emptying the slot behind the last item -/

namespace Linking

/-- What is put behind the last item has no link if it is an item. -/
theorem putBehind (h : Linking list n chain strays) (room : n < list.items.capacity)
    (size : content.length = list.items.element.size) {m : Nat} (more : n ≤ m) (one : m ≤ n + 1)
    (strung : Strung (list.putItem n content) m chain strays)
    (free : n < m → Slots.readWord content (nextOffset list.items.element) < 0) :
    Linking (list.putItem n content) m chain strays := by
  refine ⟨strung, ?_⟩
  intro countable slot below apart
  rw [h.linkAt_putItem room size]
  split
  · exact free (by omega)
  · exact h.loose (by omega) slot (by omega) apart

/-- Content that leaves its slot empty keeps the chain. -/
theorem keepEmpty (h : Linking list n chain strays) (room : n < list.items.capacity)
    (size : content.length = list.items.element.size)
    (index : Slots.readWord content 0 ≤ Slots.emptyIndex) :
    Linking (list.putItem n content) n chain strays :=
  h.putBehind room size (Nat.le_refl n) (Nat.le_succ n) (h.toStrung.keepEmpty room size index)
    fun less => absurd less (Nat.lt_irrefl n)

/-- What is claimed is not linked. -/
theorem nextSlot_cases (h : Linking list n chain strays) :
    (∃ e, list.nextSlot = .error e) ∨
    ∃ m after, list.nextSlot = .ok (n, after) ∧ Linking after m chain strays := by
  rcases h.toStrung.nextSlot_cases with ⟨-, full⟩ | ⟨m, room, more, one, claimed, strung⟩
  · exact Or.inl ⟨_, full⟩
  · refine Or.inr ⟨m, _, claimed,
      h.putBehind room (h.length_claimedContent room) more one strung ?_⟩
    intro _
    rw [h.next_claimedContent room]
    decide

end Linking

/-! ### Strays -/

namespace Strung

/-- A stray where the head knows no last item leaves a list without slots. -/
theorem exists_stray_of_none (h : Strung list n chain strays)
    (number : (Int64.ofNat slot).toInt = -1) (last : slotOf? list.storedHead.last = none) :
    ∃ after strays', list.linkBehind list.storedHead slot = .ok after ∧
      Strung after n [] strays' ∧ slotOf? after.storedHead.last = none ∧
      after.storedHead.count = list.storedHead.count + 1 := by
  have link : (Int32.ofNat slot).toInt = -1 := toInt_ofNat_of_stray number
  have nowhere : slotOf? (Int32.ofNat slot) = none := slotOf?_of_neg (by omega)
  have longer : list.storedHead.count + 1 =
      Int32.ofNat (([] : List Nat).length + (chain.length + strays + 1)) := by
    rw [h.count, List.length_nil, Nat.zero_add, ofNat_succ]
  obtain ⟨written, strung⟩ := h.toFramed.strung_withHead h.element h.small h.links h.filled
    ⟨Int32.ofNat slot, Int32.ofNat slot, list.storedHead.count + 1⟩ .nil (by simp)
    (show (Int32.ofNat slot).toInt < 0 by omega) (Or.inl nowhere) longer
  have head := h.storedHead_withHead
    ⟨Int32.ofNat slot, Int32.ofNat slot, list.storedHead.count + 1⟩
  refine ⟨_, _, ?_, strung, by rw [head]; exact nowhere, by rw [head]⟩
  unfold linkBehind
  rw [last]
  exact written

/-- A stray where the head knows a last item, which takes more items than can be counted, makes the
head forget that item. -/
theorem exists_stray_of_last (h : Strung list n chain strays) {tail : Nat}
    (number : (Int64.ofNat slot).toInt = -1) (last : slotOf? list.storedHead.last = some tail)
    (limit : n = 2147483648) :
    ∃ after strays', list.linkBehind list.storedHead slot = .ok after ∧
      Strung after n chain strays' ∧ slotOf? after.storedHead.last = none ∧
      after.storedHead.count = list.storedHead.count + 1 := by
  have link : (Int32.ofNat slot).toInt = -1 := toInt_ofNat_of_stray number
  have nowhere : slotOf? (Int32.ofNat slot) = none := slotOf?_of_neg (by omega)
  have same : chain.getLast? = some tail := by
    rcases h.last with same | ⟨-, lost⟩
    · exact same.symm.trans last
    · rw [last] at lost
      cases lost
  have inside := Nat.lt_of_lt_of_le (h.lt_of_last last) h.filled.inside
  have links := h.linkAt_leading h.lt_capacity slot
  have linked : LinksTo (list.leading chain slot).linkAt list.storedHead.first.toInt chain := by
    obtain ⟨front, rfl⟩ := List.getLast?_eq_some_iff.1 same
    obtain ⟨-, -, before⟩ := List.pairwise_append.1 h.sorted
    refine h.linked.stop ?_ ?_
    · intro other mem
      have := before other mem tail (by simp)
      rw [links, same, if_neg (by simp; omega)]
    · rw [links, if_pos same, link]
      decide
  have longer : list.storedHead.count + 1 = Int32.ofNat (chain.length + (strays + 1)) := by
    rw [h.count, ← Nat.add_assoc, ofNat_succ]
  obtain ⟨written, strung, head⟩ := h.strung_leading slot
    ⟨list.storedHead.first, Int32.ofNat slot, list.storedHead.count + 1⟩ h.sorted h.bound linked
    (Or.inr ⟨limit, nowhere⟩) longer
  refine ⟨_, _, ?_, strung, by rw [head]; exact nowhere, by rw [head]⟩
  rw [h.linkBehind_of_last inside last same]
  exact written

/-- A stray is counted by the head and links nothing. -/
theorem exists_stray (h : Strung list n chain strays) (stray : Stray list slot) :
    ∃ after chain' strays', list.linkBehind list.storedHead slot = .ok after ∧
      Strung after n chain' strays' ∧ slotOf? after.storedHead.last = none ∧
      after.storedHead.count = list.storedHead.count + 1 := by
  have count := h.items_count
  obtain ⟨none, -, number⟩ := stray
  cases last : slotOf? list.storedHead.last with
  | none =>
    obtain ⟨after, strays', done⟩ := h.exists_stray_of_none number last
    exact ⟨after, [], strays', done⟩
  | some tail =>
    have below := h.lt_of_last last
    have limit : n = 2147483648 := by
      have numbers := h.filled.numbers
      split at count <;> omega
    obtain ⟨after, strays', done⟩ := h.exists_stray_of_last number last limit
    exact ⟨after, chain, strays', done⟩

end Strung

/-! ### Appending and pushing -/

/-- An item can be appended if its slot is that of the item claimed last and is not in the list
yet. -/
def Appendable (list : LinkedList) (slots : List Nat) (slot : Nat) : Prop :=
  slot < list.items.capacity ∧ list.items.isPresent slot = true ∧ slot + 1 = list.items.count ∧
    slot ∉ slots

namespace Linking

/-- What is in the list can be told from the links. -/
theorem appendable_iff (h : Linking list n chain strays) (slot : Nat) :
    Appendable list chain slot ↔ Ready list chain slot := by
  constructor
  · rintro ⟨inside, present, next, apart⟩
    have below := h.filled.isPresent_iff.1 present
    exact ⟨next, h.loose (h.eq_of_next next).2 slot below apart,
      fun last => apart (List.mem_of_getLast? last)⟩
  · rintro ⟨next, free, different⟩
    have below : slot < n := by
      rw [(h.eq_of_next next).1]
      exact Nat.lt_succ_self slot
    refine ⟨Nat.lt_of_lt_of_le below h.filled.inside, h.filled.isPresent_iff.2 below, next, ?_⟩
    intro mem
    have linked := h.linked.next_nonneg mem different
    omega

/-- When an item is added to the chain, those that are not in it still have no link. -/
theorem extended (h : Linking list n chain strays) {after : LinkedList} {m : Nat} (more : n ≤ m)
    (strung : Strung after m (chain ++ [slot]) strays)
    (fresh : ∀ other < m, other ≠ slot → other < n)
    (links : ∀ other < n, other ∉ chain → other ≠ slot →
      after.linkAt other = list.linkAt other) :
    Linking after m (chain ++ [slot]) strays := by
  refine ⟨strung, ?_⟩
  intro countable other below apart
  have outside : other ∉ chain := fun mem => apart (List.mem_append_left _ mem)
  have different : other ≠ slot := by
    rintro rfl
    exact apart (List.mem_append_right _ (List.mem_singleton_self other))
  have inside := fresh other below different
  rw [links other inside outside different]
  exact h.loose (by omega) other inside outside

/-- An append extends the chain by its slot, or it is a stray, or it is refused as out of order. -/
theorem append_cases (h : Linking list n chain strays) (slot : Nat) :
    (Appendable list chain slot ∧ ∃ after, list.append slot = .ok after ∧
      Linking after n (chain ++ [slot]) strays ∧ slotOf? after.storedHead.last = some slot ∧
      after.storedHead.count = list.storedHead.count + 1) ∨
    (Stray list slot ∧ ∃ after chain' strays', list.append slot = .ok after ∧
      Linking after n chain' strays' ∧ slotOf? after.storedHead.last = none ∧
      after.storedHead.count = list.storedHead.count + 1) ∨
    (¬Appendable list chain slot ∧ ¬Stray list slot ∧
      ∃ expected found, list.append slot = .error (.outOfOrderAppend expected found)) := by
  rw [h.appendable_iff]
  rcases h.toStrung.append_eq slot with ⟨ready, same⟩ | ⟨stray, same⟩ | refused
  · obtain ⟨after, done, strung, -, last, count, links⟩ := h.exists_link ready
    refine Or.inl ⟨ready, after, same.trans done, ?_, last, count⟩
    exact h.extended (Nat.le_refl n) strung (fun _ below _ => below)
      fun other _ outside _ => links other outside
  · obtain ⟨after, chain', strays', done, strung, last, count⟩ := h.exists_stray stray
    refine Or.inr (Or.inl ⟨stray, after, chain', strays', same.trans done, ⟨strung, ?_⟩, last,
      count⟩)
    -- Unless there are too many items to count them, there are none at all.
    intro countable other below
    have none := h.items_count.symm.trans stray.1
    rw [if_pos countable] at none
    omega
  · exact Or.inr (Or.inr refused)

/-- A push links its item or leaves its slot empty. -/
theorem push (h : Linking list n chain strays) (tree : Value) :
    ∃ m chain', Linking (list.push tree).2 m chain' strays := by
  rcases h.toStrung.push_cases tree with ⟨content, after, -, -, -, done, strung, -, links⟩ |
    ⟨e, full⟩ | ⟨e, content, room, size, index, -, failed⟩
  · rw [done]
    refine ⟨n + 1, chain ++ [n], h.extended (Nat.le_succ n) strung ?_ ?_⟩
    · intro other below different
      omega
    · exact fun other _ outside different => links other outside different
  · rw [full]
    exact ⟨n, chain, h⟩
  · rw [failed]
    exact ⟨n, chain, h.keepEmpty room size index⟩

end Linking

/-! ### Runs -/

/-- A list without items has no item that is not in it. -/
theorem Strung.linking (h : Strung list 0 [] 0) : Linking list 0 [] 0 :=
  ⟨h, fun _ _ below => absurd below (Nat.not_lt_zero _)⟩

/-- An allocated list has no items. -/
theorem linking_of_allocate {compiler : Compiler} {type : DataType} {capacity : Nat}
    {itemParams : Params} {start : LinkedList} (buildable : type.Buildable)
    (allocated : allocate compiler type capacity itemParams = .ok start) :
    Linking start 0 [] 0 := by
  obtain ⟨list, framed, started, most, made⟩ := framed_of_allocate buildable allocated
  obtain ⟨formed, -, capacity_eq, -⟩ := SlotArray.blank_of_allocate buildable made
  have high := (Int64.ofNat capacity).toInt_lt
  obtain ⟨after, begun, strung, -⟩ := framed.init_eq formed.2 (by omega) most
  cases begun.symm.trans started
  exact strung.linking

/-- The slot of an append is read as `-1`. -/
def Operation.IsStray : Operation → Prop
  | .append slot => (Int64.ofNat slot).toInt = -1
  | _ => False

namespace Linking

/-- Whatever is done to a list, it stays linking, and only a stray is counted as one. -/
theorem perform (h : Linking list n chain strays) (operation : Operation) :
    ∃ n' chain' strays', Linking (list.perform operation).2 n' chain' strays' ∧
      (¬operation.IsStray → strays = 0 → strays' = 0) := by
  cases operation with
  | push tree =>
    obtain ⟨m, chain', after⟩ := h.push tree
    have same : (list.perform (.push tree)).2 = (list.push tree).2 := by
      simp only [LinkedList.perform]
      split
      · next done => rw [done]
      · next done => rw [done]
    rw [same]
    exact ⟨m, chain', strays, after, fun _ none => none⟩
  | nextSlot =>
    simp only [LinkedList.perform]
    rcases h.nextSlot_cases with ⟨e, full⟩ | ⟨m, after, claimed, linking⟩
    · rw [full]
      exact ⟨n, chain, strays, h, fun _ none => none⟩
    · rw [claimed]
      exact ⟨m, chain, strays, linking, fun _ none => none⟩
  | append slot =>
    simp only [LinkedList.perform]
    rcases h.append_cases slot with ⟨-, after, done, linking, -⟩ |
      ⟨stray, after, chain', strays', done, linking, -⟩ | ⟨-, -, expected, found, refused⟩
    · rw [done]
      exact ⟨n, _, strays, linking, fun _ none => none⟩
    · rw [done]
      exact ⟨n, chain', strays', linking, fun apart => absurd stray.2.2 apart⟩
    · rw [refused]
      exact ⟨n, chain, strays, h, fun _ none => none⟩
  | init =>
    obtain ⟨after, done, strung, -⟩ := h.toFramed.init_eq h.element h.small h.links
    simp only [LinkedList.perform, done]
    exact ⟨0, [], 0, strung.linking, fun _ _ => rfl⟩

/-- A run keeps a list linking. -/
theorem run {list : LinkedList} {n strays : Nat} {chain : List Nat}
    (h : Linking list n chain strays) : ∀ operations : List Operation,
      ∃ n' chain' strays', Linking (list.run operations) n' chain' strays' ∧
        ((∀ operation ∈ operations, ¬operation.IsStray) → strays = 0 → strays' = 0)
  | [] => ⟨n, chain, strays, h, fun _ none => none⟩
  | operation :: rest => by
    obtain ⟨n', chain', strays', step, kept⟩ := h.perform operation
    obtain ⟨n'', chain'', strays'', last, more⟩ := step.run rest
    refine ⟨n'', chain'', strays'', last, ?_⟩
    intro apart none
    exact more (fun other mem => apart other (List.mem_cons_of_mem _ mem))
      (kept (apart operation List.mem_cons_self) none)

end Linking

end DeviceBlob.LinkedList
