import DeviceBlob.LinkedList
import DeviceBlob.Proofs.Blob.Set
import DeviceBlob.Proofs.Blob.Words

/-!
# Walking along links

The bytes of a list from elsewhere may hold any links.  From a link on a list `Meets` one slot after
the other, as long as they hold items, and comes to a last link.  A walk returns the slots that are
met if the last link leads nowhere; it gives up if it may follow no more links, and it fails if the
last link leads to no item (`Walkable.walk_cases`).  Where the last link leads nowhere no slot is met
twice (`Meets.nodup`), so a walk that meets more slots than there are is in a cycle.  Main
statement: `slots_of_ofParts`.
-/

namespace DeviceBlob.LinkedList

/-- The distance of the link from the first byte of an element. -/
def nextOffset (element : Layout) : Nat :=
  ((element.accessor? DataType.nextField).map (·.offset)).getD 0

/-- The link in a slot, whether the slot holds an item or not. -/
def linkAt (list : LinkedList) (slot : Nat) : Int :=
  Slots.readWord (Slots.slot list.items.element list.items.bytes slot)
    (nextOffset list.items.element)

/-- From the first link on the given slots are met one by one, each of which holds an item, and the
item in the last of them has the last link. -/
def Meets (list : LinkedList) : Int → List Nat → Int → Prop
  | first, [], last => first = last
  | first, slot :: rest, last =>
    first = slot ∧ list.items.isPresent slot = true ∧ list.Meets (list.linkAt slot) rest last

/-- All items of a list are there and have links, whatever these say. -/
structure Walkable (list : LinkedList) : Prop where
  /-- There are bytes for all slots. -/
  room : Slots.Holds list.items.capacity list.items.element list.items.bytes
  /-- An item has a link. -/
  next : list.items.element.HasWord DataType.nextField (nextOffset list.items.element)

variable {list : LinkedList} {slot : Nat}

/-! ### Links -/

/-- A negative link names no slot. -/
theorem slotOf?_of_neg {link : Int32} (h : link.toInt < 0) : slotOf? link = none := by
  unfold slotOf?
  rw [if_neg (by omega)]

/-- A link that is a slot names it. -/
theorem slotOf?_of_eq {link : Int32} (h : link.toInt = slot) : slotOf? link = some slot := by
  unfold slotOf?
  rw [if_pos (by omega), h, Int.toNat_natCast]

namespace Walkable

/-- The link of an item can always be read. -/
theorem getInt32_next (h : Walkable list) (inside : slot < list.items.capacity) :
    (list.items.slotBlob slot).getInt32 DataType.nextField =
      .ok (Int32.ofInt (list.linkAt slot)) := by
  have word : (list.items.slotBlob slot).layout.HasWord DataType.nextField
      (nextOffset list.items.element) := h.next
  refine Blob.getInt32_eq word (Nat.le_of_eq ?_)
  exact (Slots.length_slot h.room inside).symm

/-- The link of a slot is a number of 32 bits. -/
theorem toInt_linkAt (h : Walkable list) (inside : slot < list.items.capacity) :
    (Int32.ofInt (list.linkAt slot)).toInt = list.linkAt slot := by
  have length := Slots.length_slot h.room inside
  have room := h.next.2
  obtain ⟨low, high⟩ := @Slots.isWord_readWord
    (Slots.slot list.items.element list.items.bytes slot) (nextOffset list.items.element) (by omega)
  exact Int32.toInt_ofInt_of_le (by unfold linkAt; omega) (by unfold linkAt; omega)

end Walkable

/-! ### The slots that are met -/

namespace Meets

variable {first last other : Int} {slots others : List Nat}

/-- All slots that a walk meets are present. -/
theorem isPresent : ∀ {slots : List Nat} {first : Int}, Meets list first slots last →
    ∀ slot ∈ slots, list.items.isPresent slot = true
  | _ :: _, _, ⟨_, here, there⟩, slot, mem => by
    rcases List.mem_cons.1 mem with rfl | mem
    · exact here
    · exact there.isPresent slot mem

/-- What is met behind a slot is what is met from its link on. -/
theorem behind : ∀ {front back : List Nat} {first : Int},
    Meets list first (front ++ slot :: back) last → Meets list (list.linkAt slot) back last
  | [], _, _, ⟨_, _, there⟩ => there
  | _ :: _, _, _, ⟨_, _, there⟩ => behind there

/-- From a link on there is only one way to a link that leads nowhere. -/
theorem unique : ∀ {slots others : List Nat} {first : Int}, Meets list first slots last →
    last < 0 → Meets list first others other → other < 0 → slots = others
  | [], [], _, _, _, _, _ => rfl
  | [], slot :: _, _, here, ends, ⟨there, _, _⟩, _ => by
    have negative : (slot : Int) < 0 := there ▸ here ▸ ends
    omega
  | slot :: _, [], _, ⟨here, _, _⟩, _, there, ends => by
    have negative : (slot : Int) < 0 := here ▸ there ▸ ends
    omega
  | slot :: _, next :: _, _, ⟨here, _, below⟩, ends, ⟨there, _, below'⟩, ends' => by
    obtain rfl : slot = next := Int.ofNat_inj.1 (here.symm.trans there)
    rw [below.unique ends below' ends']

/-- On the way to a link that leads nowhere no slot is met twice. -/
theorem nodup : ∀ {slots : List Nat} {first : Int}, Meets list first slots last → last < 0 →
    slots.Nodup
  | [], _, _, _ => .nil
  | slot :: rest, _, ⟨_, _, there⟩, ends => by
    refine List.nodup_cons.2 ⟨?_, there.nodup ends⟩
    intro again
    obtain ⟨front, back, rfl⟩ := List.append_of_mem again
    -- A second visit would lead the same way again, which would be shorter than itself.
    have same := congrArg List.length (there.behind.unique ends there ends)
    simp only [List.length_append, List.length_cons] at same
    omega

/-- Slots that are met once each are not more than there are. -/
theorem length_le (met : Meets list first slots last) (once : slots.Nodup) :
    slots.length ≤ list.items.capacity :=
  Slots.length_le_of_nodup once fun slot mem =>
    (SlotArray.isPresent_iff.1 (met.isPresent slot mem)).1

end Meets

/-- As many slots are met as asked for, unless a link leads nowhere or to no item. -/
theorem exists_meets (list : LinkedList) : ∀ (links : Nat) (first : Int), ∃ slots last,
    Meets list first slots last ∧ slots.length ≤ links ∧
      (last < 0 ∨ (slots.length = links ∧ 0 ≤ last) ∨
        ∃ slot : Nat, last = slot ∧ slots.length < links ∧ list.items.isPresent slot = false)
  | links, .negSucc n =>
    ⟨[], .negSucc n, rfl, Nat.zero_le _, Or.inl (Int.negSucc_lt_zero n)⟩
  | 0, .ofNat slot =>
    ⟨[], slot, rfl, Nat.le_refl _, Or.inr (Or.inl ⟨rfl, Int.natCast_nonneg slot⟩)⟩
  | links + 1, .ofNat slot => by
    cases here : list.items.isPresent slot with
    | false =>
      exact ⟨[], slot, rfl, Nat.zero_le _, Or.inr (Or.inr ⟨slot, rfl, Nat.succ_pos _, here⟩)⟩
    | true =>
      obtain ⟨slots, last, met, few, ends⟩ := exists_meets list links (list.linkAt slot)
      refine ⟨slot :: slots, last, ⟨rfl, here, met⟩, Nat.succ_le_succ few, ?_⟩
      simp only [List.length_cons, Nat.add_right_cancel_iff, Nat.add_lt_add_iff_right]
      exact ends

/-! ### Walks -/

namespace Walkable

variable {first : Int32} {last : Int} {slots : List Nat} {links : Nat}

/-- A walk follows the links over all slots that are met and goes on from the last link. -/
theorem exists_walk_eq (h : Walkable list) : ∀ {slots : List Nat} {first : Int32},
    Meets list first.toInt slots last → ∃ link : Int32, link.toInt = last ∧
      ∀ more, list.walk (slots.length + more) first = (slots ++ ·) <$> list.walk more link
  | [], first, met => by
    refine ⟨first, met, ?_⟩
    intro more
    simp only [List.length_nil, Nat.zero_add, List.nil_append]
    exact (id_map _).symm
  | slot :: rest, first, ⟨here, present, there⟩ => by
    obtain ⟨inside, -⟩ := SlotArray.isPresent_iff.1 present
    have item : list.items.get? slot = some (list.items.slotBlob slot) := by
      rw [SlotArray.get?, if_pos present]
    rw [← h.toInt_linkAt inside] at there
    obtain ⟨link, same, followed⟩ := h.exists_walk_eq there
    refine ⟨link, same, ?_⟩
    intro more
    rw [List.length_cons, Nat.add_right_comm, walk.eq_def, slotOf?_of_eq here]
    simp only [item, h.getInt32_next inside, ok_bind, followed]
    cases list.walk more link <;> rfl

/-- A walk ends with a link that leads nowhere. -/
theorem walk_eq_ok (h : Walkable list) (met : Meets list first.toInt slots last) (ends : last < 0)
    (enough : slots.length ≤ links) : list.walk links first = .ok slots := by
  obtain ⟨link, rfl, followed⟩ := h.exists_walk_eq met
  rw [← Nat.add_sub_cancel' enough, followed, walk.eq_def, slotOf?_of_neg ends]
  exact congrArg Except.ok (List.append_nil slots)

/-- A walk gives up when it has followed all links that it may follow. -/
theorem walk_eq_cycleDetected (h : Walkable list) (met : Meets list first.toInt slots last)
    (all : slots.length = links) (more : 0 ≤ last) :
    list.walk links first = .error (.cycleDetected list.maxLinks) := by
  obtain ⟨link, rfl, followed⟩ := h.exists_walk_eq met
  have there : slotOf? link = some link.toInt.toNat := slotOf?_of_eq (by omega)
  rw [← all, ← Nat.add_zero slots.length, followed, walk.eq_def, there]
  rfl

/-- A walk fails at a link that leads to no item. -/
theorem walk_eq_danglingLink (h : Walkable list) (met : Meets list first.toInt slots slot)
    (before : slots.length < links) (absent : list.items.isPresent slot = false) :
    list.walk links first = .error (.layoutMismatch list.items.typeName (.danglingLink slot)) := by
  obtain ⟨link, same, followed⟩ := h.exists_walk_eq met
  obtain ⟨more, rfl⟩ := Nat.exists_eq_add_of_lt before
  have item : list.items.get? slot = none := by
    rw [SlotArray.get?, absent, if_neg Bool.false_ne_true]
  rw [Nat.add_assoc, followed, walk.eq_def, slotOf?_of_eq same]
  simp only [item]
  rfl

/-- A walk returns the slots that it meets, gives up or fails at a link. -/
theorem walk_cases (h : Walkable list) (links : Nat) (first : Int32) : ∃ slots last,
    Meets list first.toInt slots last ∧
      ((last < 0 ∧ slots.length ≤ links ∧ list.walk links first = .ok slots) ∨
        (0 ≤ last ∧ slots.length = links ∧
          list.walk links first = .error (.cycleDetected list.maxLinks)) ∨
        ∃ slot : Nat, last = slot ∧ slots.length < links ∧ list.items.isPresent slot = false ∧
          list.walk links first =
            .error (.layoutMismatch list.items.typeName (.danglingLink slot))) := by
  obtain ⟨slots, last, met, few, ends | ⟨all, more⟩ | ⟨slot, rfl, before, absent⟩⟩ :=
    exists_meets list links first.toInt
  · exact ⟨slots, last, met, Or.inl ⟨ends, few, h.walk_eq_ok met ends few⟩⟩
  · exact ⟨slots, last, met, Or.inr (Or.inl ⟨more, all, h.walk_eq_cycleDetected met all more⟩)⟩
  · exact ⟨slots, slot, met, Or.inr (Or.inr ⟨slot, rfl, before, absent,
      h.walk_eq_danglingLink met before absent⟩)⟩

/-- A walk returns the slots that it meets exactly if it comes to a link that leads nowhere. -/
theorem walk_eq_ok_iff (h : Walkable list) : list.walk links first = .ok slots ↔
    ∃ last < 0, Meets list first.toInt slots last ∧ slots.length ≤ links := by
  constructor
  · intro returned
    obtain ⟨slots, last, met, ⟨ends, few, same⟩ | ⟨-, -, other⟩ | ⟨slot, -, -, -, other⟩⟩ :=
      h.walk_cases links first
    · cases same.symm.trans returned
      exact ⟨last, ends, met, few⟩
    · cases other.symm.trans returned
    · cases other.symm.trans returned
  · rintro ⟨last, ends, met, enough⟩
    exact h.walk_eq_ok met ends enough

/-- A walk gives up exactly if as many items are met as it may follow links and one more link
follows. -/
theorem walk_eq_cycleDetected_iff (h : Walkable list) :
    list.walk links first = .error (.cycleDetected list.maxLinks) ↔
      ∃ slots last, Meets list first.toInt slots last ∧ slots.length = links ∧ 0 ≤ last := by
  constructor
  · intro failed
    obtain ⟨slots, last, met, ⟨-, -, other⟩ | ⟨more, all, -⟩ | ⟨slot, -, -, -, other⟩⟩ :=
      h.walk_cases links first
    · cases other.symm.trans failed
    · exact ⟨slots, last, met, all, more⟩
    · cases other.symm.trans failed
  · rintro ⟨slots, last, met, all, more⟩
    exact h.walk_eq_cycleDetected met all more

/-- A walk fails at a link exactly if that is the first to lead to no item. -/
theorem walk_eq_danglingLink_iff (h : Walkable list) : list.walk links first =
      .error (.layoutMismatch list.items.typeName (.danglingLink slot)) ↔
    ∃ slots, Meets list first.toInt slots slot ∧ slots.length < links ∧
      list.items.isPresent slot = false := by
  constructor
  · intro failed
    obtain ⟨slots, last, met, ⟨-, -, other⟩ | ⟨-, -, other⟩ | ⟨slot, rfl, before, absent, same⟩⟩ :=
      h.walk_cases links first
    · cases other.symm.trans failed
    · cases other.symm.trans failed
    · cases same.symm.trans failed
      exact ⟨slots, met, before, absent⟩
  · rintro ⟨slots, met, before, absent⟩
    exact h.walk_eq_danglingLink met before absent

end Walkable

/-! ### Lists made of any bytes -/

/-- A field that passes for a word is an accessor of 32 bits. -/
theorem checkWord_eq_ok {layout : Layout} {field : String} (h : checkWord layout field = .ok ()) :
    ∃ place, layout.accessor? field = some place ∧ place.content = .scalar .int32 := by
  unfold checkWord at h
  split at h
  · next place found =>
    split at h
    · next same => exact ⟨place, found, same⟩
    · cases h
  · cases h

/-- A field that was checked is a word of the layout. -/
theorem exists_hasWord_of_checkWord {layout : Layout} {field : String}
    (h : checkWord layout field = .ok ()) : ∃ offset, layout.HasWord field offset ∧
      ((layout.accessor? field).map (·.offset)).getD 0 = offset := by
  obtain ⟨⟨name, offset, content⟩, found, same⟩ := checkWord_eq_ok h
  obtain rfl : content = .scalar .int32 := same
  obtain rfl : name = field := by simpa using List.find?_some found
  obtain ⟨stop, inside, tiles⟩ := layout.exists_tiles_accessors
  have bounds := (tiles.bounds.2 _ (List.mem_of_find?_eq_some found)).2
  refine ⟨offset, ⟨found, Nat.le_trans bounds inside⟩, ?_⟩
  rw [found]
  rfl

/-- A list made of an array and a head that were checked can be walked, with any limit. -/
theorem walkable_of_ofParts {items : SlotArray} {head : Blob} {made : LinkedList}
    (itemsRoom : items.layout.size ≤ items.bytes.length)
    (headRoom : head.layout.size ≤ head.bytes.length)
    (accepted : ofParts items head = .ok made) (limit : Nat) :
    { made with maxLinks := limit } = (⟨items, head, limit⟩ : LinkedList) ∧
      Walkable ⟨items, head, limit⟩ ∧
      ∃ start, (⟨items, head, limit⟩ : LinkedList).readHead = .ok start := by
  unfold ofParts at accepted
  simp only [bind_eq_ok] at accepted
  obtain ⟨⟨⟩, linked, ⟨⟩, fields, same⟩ := accepted
  cases same
  obtain ⟨offset, next, rfl⟩ := exists_hasWord_of_checkWord linked
  refine ⟨rfl, ⟨itemsRoom, next⟩, ?_⟩
  have readable : ∀ field ∈ ListHead.fieldNames, ∃ word, head.getInt32 field = .ok word := by
    intro field mem
    obtain ⟨offset, held, -⟩ := exists_hasWord_of_checkWord (forM_eq_ok.1 fields field mem)
    exact ⟨_, Blob.getInt32_eq held headRoom⟩
  obtain ⟨first, atFirst⟩ := readable "first" (by decide)
  obtain ⟨last, atLast⟩ := readable "last" (by decide)
  obtain ⟨count, atCount⟩ := readable "count" (by decide)
  refine ⟨⟨first, last, count⟩, ?_⟩
  simp only [readHead, atFirst, atLast, atCount, ok_bind]
  rfl

/-- The slots of a list are those on a walk from the link in its head on. -/
theorem slots_of_readHead {start : ListHead} (read : list.readHead = .ok start) :
    list.slots = list.walk list.maxLinks start.first := by
  obtain ⟨first, here, rest⟩ := bind_eq_ok.1 read
  obtain ⟨last, -, rest⟩ := bind_eq_ok.1 rest
  obtain ⟨count, -, same⟩ := bind_eq_ok.1 rest
  cases same
  unfold slots
  rw [here, ok_bind]

/-- **The slots of a list made of any bytes**, followed with any limit.  The slots are returned
exactly if each link on the way from the head leads to an item, until one leads nowhere after at most
as many slots as the limit; then no slot is there twice, so there are not more than the array has.  A
cycle is reported exactly if as many items are met as the limit and one more link follows, and if the
limit is greater than the number of slots, one of them is really met twice.  In all other cases a link
to no item is reported. -/
theorem slots_of_ofParts {items : SlotArray} {head : Blob} {made : LinkedList}
    (itemsRoom : items.layout.size ≤ items.bytes.length)
    (headRoom : head.layout.size ≤ head.bytes.length)
    (accepted : ofParts items head = .ok made) {limit : Nat}
    (limited : list = { made with maxLinks := limit }) :
    ∃ start, list.readHead = .ok start ∧
      (∀ slot item, items.get? slot = some item → ∃ link,
        item.getInt32 DataType.nextField = .ok link ∧ link.toInt = list.linkAt slot) ∧
      (∀ slots, list.slots = .ok slots ↔ ∃ last < 0,
        Meets list start.first.toInt slots last ∧ slots.length ≤ limit) ∧
      (∀ slots, list.slots = .ok slots → slots.Nodup ∧ slots.length ≤ items.capacity) ∧
      (list.slots = .error (.cycleDetected limit) ↔ ∃ slots last,
        Meets list start.first.toInt slots last ∧ slots.length = limit ∧ 0 ≤ last) ∧
      (items.capacity < limit → ∀ slots last, Meets list start.first.toInt slots last →
        slots.length = limit → ¬slots.Nodup) ∧
      (∀ slot, list.slots = .error (.layoutMismatch items.typeName (.danglingLink slot)) ↔
        ∃ slots, Meets list start.first.toInt slots slot ∧ slots.length < limit ∧
          items.isPresent slot = false) ∧
      ((∃ slots, list.slots = .ok slots) ∨ list.slots = .error (.cycleDetected limit) ∨
        ∃ slot, list.slots = .error (.layoutMismatch items.typeName (.danglingLink slot))) := by
  obtain ⟨same, h, start, read⟩ := walkable_of_ofParts itemsRoom headRoom accepted limit
  rw [← limited] at same
  subst same
  have walked := slots_of_readHead read
  have returned : ∀ slots, LinkedList.slots ⟨items, head, limit⟩ = .ok slots ↔ ∃ last < 0,
      Meets ⟨items, head, limit⟩ start.first.toInt slots last ∧ slots.length ≤ limit := by
    intro slots
    rw [walked]
    exact h.walk_eq_ok_iff
  refine ⟨start, read, ?_, returned, ?_, ?_, ?_, ?_, ?_⟩
  · intro slot item found
    unfold SlotArray.get? at found
    split at found
    · next present =>
      obtain ⟨inside, -⟩ := SlotArray.isPresent_iff.1 present
      cases found
      exact ⟨_, h.getInt32_next inside, h.toInt_linkAt inside⟩
    · cases found
  · intro slots done
    obtain ⟨last, ends, met, -⟩ := (returned slots).1 done
    exact ⟨met.nodup ends, met.length_le (met.nodup ends)⟩
  · rw [walked]
    exact h.walk_eq_cycleDetected_iff
  · intro greater slots last met all once
    have few := met.length_le once
    exact absurd (all ▸ few) (Nat.not_le.2 greater)
  · intro slot
    rw [walked]
    exact h.walk_eq_danglingLink_iff
  · rw [walked]
    obtain ⟨slots, last, -, ⟨-, -, done⟩ | ⟨-, -, cycle⟩ | ⟨slot, -, -, -, dangling⟩⟩ :=
      h.walk_cases limit start.first
    · exact Or.inl ⟨slots, done⟩
    · exact Or.inr (Or.inl cycle)
    · exact Or.inr (Or.inr ⟨slot, dangling⟩)

/-- The stops of a line, as they came from elsewhere: the last of three leads back to the second. -/
def lineStops : SlotArray where
  typeName := "Stops"
  capacity := 3
  element := .record "Stop"
    [("index", .scalar .int32), ("zone", .scalar .uint8), ("next", .scalar .int32)]
  bytes := [3, 0, 0, 0, 0, 0, 0, 0] ++ [0, 0, 0, 0, 7, 1, 0, 0, 0] ++ [1, 0, 0, 0, 7, 2, 0, 0, 0] ++
    [2, 0, 0, 0, 7, 1, 0, 0, 0]
  correction := none

/-- The head of a line, with its number in front and something else behind it. -/
def lineHead : Blob where
  layout := .record "Line" [("number", .scalar .uint16), ("last", .scalar .int32),
    ("first", .scalar .int32), ("count", .scalar .int32)]
  bytes := [12, 0] ++ [2, 0, 0, 0] ++ [0, 0, 0, 0] ++ [3, 0, 0, 0] ++ [255]

/-- Of a line that never ends, a walk over at most four stops meets one twice. -/
theorem slots_of_ofParts_line :
    lineStops.layout.size ≤ lineStops.bytes.length ∧
      lineHead.layout.size ≤ lineHead.bytes.length ∧
      ofParts lineStops lineHead = .ok ⟨lineStops, lineHead, 5000⟩ ∧
      LinkedList.slots ⟨lineStops, lineHead, 4⟩ = .error (.cycleDetected 4) ∧
      Meets ⟨lineStops, lineHead, 4⟩ 0 [0, 1, 2, 1] 2 ∧ ¬[0, 1, 2, 1].Nodup := by
  have accepted : ofParts lineStops lineHead = .ok ⟨lineStops, lineHead, 5000⟩ := rfl
  obtain ⟨start, read, -, -, -, cycle, twice, -, -⟩ :=
    @slots_of_ofParts ⟨lineStops, lineHead, 4⟩ _ _ _ (by decide) (by decide) accepted 4 rfl
  have first : LinkedList.readHead ⟨lineStops, lineHead, 4⟩ = .ok ⟨0, 2, 3⟩ := rfl
  cases first.symm.trans read
  have met : Meets ⟨lineStops, lineHead, 4⟩ 0 [0, 1, 2, 1] 2 :=
    ⟨rfl, rfl, rfl, rfl, rfl, rfl, rfl, rfl, rfl⟩
  exact ⟨by decide, by decide, accepted, cycle.2 ⟨_, _, met, rfl, by decide⟩, met,
    twice (by decide) _ _ met rfl⟩

end DeviceBlob.LinkedList
