import DeviceBlob.Proofs.Tree.Slots

/-!
# The two passes over a fitting tree

The first pass turns a blank layout into one that is `Staged`: every scalar and label reads as the
tree has it, and every array is still blank (`writeLeaves_blank`).  The second pass takes a staged
layout and fills its arrays (`writeArrays_staged`); then the whole tree is read back, and the
entries that are left are those that none of its arrays takes.
-/

namespace DeviceBlob.Layout

open SortedMap (Functional)

/-! ### Reading a record -/

/-- Reading fields behind some bytes is reading them without these bytes. -/
theorem nestedFields_drop (bytes : Bytes) (front : Nat) (fields : List (String × Layout))
    (offset : Nat) :
    nestedFields bytes (front + offset) fields = nestedFields (bytes.drop front) offset fields := by
  induction fields generalizing offset with
  | nil => rfl
  | cons field rest ih =>
    rw [nestedFields, nestedFields, Nat.add_assoc, ih, Bytes.slice, Bytes.slice, List.drop_drop]

/-- The first field is read from the bytes in front, the others from those behind. -/
theorem nestedFields_cons {name : String} {layout : Layout} {rest : List (String × Layout)}
    {here others : Bytes} (length : here.length = layout.size) :
    nestedFields (here ++ others) 0 ((name, layout) :: rest) =
      (if layout.isPadding then [] else [(name, nestedValue here layout)]) ++
        nestedFields others 0 rest := by
  have front : (here ++ others).drop layout.size = others := by
    rw [← length, List.drop_left]
  have first : Bytes.slice (here ++ others) 0 layout.size = here := by
    rw [Bytes.slice_eq_take, ← length, List.take_left]
  rw [nestedFields, first, Nat.zero_add, ← Nat.add_zero layout.size, nestedFields_drop, front]

/-- The fields that are read are those that have a value. -/
theorem keys_nestedFields (bytes : Bytes) (fields : List (String × Layout)) (offset : Nat) :
    (nestedFields bytes offset fields).map (·.1) = valueNames fields := by
  induction fields generalizing offset with
  | nil => rfl
  | cons field rest ih =>
    have others := ih (offset + field.2.size)
    cases padded : field.2.isPadding with
    | true => simp [nestedFields, valueNames, padded, others]
    | false => simp [nestedFields, valueNames, padded, others]

/-- A map is read back if it is read back entry by entry. -/
theorem quiet_ofEntries {read entries : List (String × Value)}
    (sorted : entries.Pairwise fun a b => a.1 < b.1)
    (keys : ∀ key, key ∈ entries.map (·.1) ↔ key ∈ read.map (·.1))
    (same : ∀ entry ∈ read, ∃ item, (Value.map entries).item? entry.1 = some item ∧
      entry.2.quiet = item.quiet) :
    (Value.ofEntries read).quiet = (Value.map entries).quiet := by
  have nodup : (entries.map (·.1)).Nodup := (SortedMap.mk entries sorted).nodup_keys
  have kept {m : List (String × Value)} (order : m.Pairwise fun a b => a.1 < b.1) :
      (m.map fun entry => (entry.1, entry.2.quiet)).Pairwise fun a b => a.1 < b.1 :=
    List.pairwise_map.2 order
  rw [Value.ofEntries, Value.quiet, Value.quiet, Value.quietEntries_eq_map,
    Value.quietEntries_eq_map]
  congr 1
  refine SortedMap.eq_of_mem_iff (kept (SortedMap.ofList read).sorted) (kept sorted) ?_
  rintro ⟨key, value⟩
  simp only [List.mem_map, Prod.mk.injEq, Prod.exists]
  constructor
  · rintro ⟨_, read', held, rfl, rfl⟩
    have mem := SortedMap.mem_of_get?_ofList (SortedMap.get?_eq_some_iff.2 held)
    obtain ⟨item, found, equal⟩ := same _ mem
    exact ⟨_, item, (SortedMap.lookup_eq_some_iff_of_nodup nodup).1 found, rfl, equal.symm⟩
  · rintro ⟨_, item, held, rfl, rfl⟩
    obtain ⟨⟨_, value⟩, mem, rfl⟩ := List.mem_map.1 ((keys _).1 (List.mem_map.2 ⟨_, held, rfl⟩))
    obtain ⟨value', found⟩ := SortedMap.exists_get?_ofList mem
    obtain ⟨item', found', equal⟩ := same _ (SortedMap.mem_of_get?_ofList found)
    cases ((SortedMap.lookup_eq_some_iff_of_nodup nodup).2 held).symm.trans found'
    exact ⟨_, value', SortedMap.get?_eq_some_iff.1 found, rfl, equal⟩

/-! ### First pass -/

mutual

/-- All scalars and labels read as the tree has them, and all arrays are blank. -/
def Staged : Layout → Bytes → Value → Prop
  | scalar kind, bytes, tree => (kind.read bytes).quiet = tree.quiet
  | enum type, bytes, tree => (type.read bytes).quiet = tree.quiet
  | padding _, _, _ => True
  | record _ fields, bytes, tree => FieldsStaged fields bytes tree
  | array name capacity element, bytes, _ => bytes = (array name capacity element).blank

/-- The same for consecutive fields. -/
def FieldsStaged : List (String × Layout) → Bytes → Value → Prop
  | [], _, _ => True
  | (name, layout) :: rest, bytes, tree =>
    Staged layout (bytes.take layout.size) (fieldOf tree name) ∧
      FieldsStaged rest (bytes.drop layout.size) tree

end

section FirstPass

variable {owner : String} {flat : SortedMap String Value}

mutual

/-- Where a flat tree gives all parts that are not arrays, the first pass over a blank layout stages
the tree. -/
theorem writeLeaves_blank : ∀ {layout : Layout} {address : String} {tree : Value},
    layout.WellFormed → Fits layout tree →
      (∀ part ∈ partsAt address layout tree, part.content.isArray = false →
        flat.get? part.name = some part.value) →
        ∃ bytes, writeLeaves owner flat address layout layout.blank = .ok bytes ∧
          Staged layout bytes tree
  | scalar kind, address, tree, _, fits, given => by
    obtain ⟨bytes, written, read⟩ := Scalar.exists_write fits address
    have found := given ⟨address, scalar kind, tree⟩ (List.mem_singleton.2 rfl) rfl
    exact ⟨bytes, writeLeaves_scalar_eq_ok_iff.2 ⟨tree, found, written⟩, read⟩
  | enum type, address, tree, _, fits, given => by
    obtain ⟨bytes, written, read⟩ := EnumType.exists_write fits address
    have found := given ⟨address, enum type, tree⟩ (List.mem_singleton.2 rfl) rfl
    exact ⟨bytes, writeLeaves_enum_eq_ok_iff.2 ⟨tree, found, written⟩, read⟩
  | padding kind, _, _, _, _, _ => ⟨(padding kind).blank, rfl, trivial⟩
  | array name capacity element, _, _, _, _, _ =>
    ⟨(array name capacity element).blank, rfl, rfl⟩
  | record _ _, _, _, formed, fits, given => by
    obtain ⟨_, _, _, _, fit⟩ := fits
    exact writeLeafFields_blank formed.1 fit given

/-- The first pass over blank fields stages each of them. -/
theorem writeLeafFields_blank : ∀ {fields : List (String × Layout)} {address : String}
    {tree : Value}, FieldsWellFormed fields → FieldsFit fields tree →
      (∀ part ∈ partFields address fields tree, part.content.isArray = false →
        flat.get? part.name = some part.value) →
        ∃ bytes, writeLeafFields owner flat address fields (blankFields fields) = .ok bytes ∧
          FieldsStaged fields bytes tree
  | [], _, _, _, _, _ => ⟨[], rfl, trivial⟩
  | (name, layout) :: rest, address, tree, formed, fit, given => by
    have size := length_blank formed.2.1
    obtain ⟨here, first, staged⟩ := writeLeaves_blank formed.2.1 fit.head fun part mem =>
      given part (List.mem_append_left _ mem)
    obtain ⟨others, second, staged'⟩ := writeLeafFields_blank formed.2.2 fit.2 fun part mem =>
      given part (List.mem_append_right _ mem)
    have length := length_writeLeaves size first
    refine ⟨here ++ others, writeLeafFields_cons_eq_ok_iff.2 ⟨here, others, ?_, ?_, rfl⟩, ?_, ?_⟩
    · rw [blankFields, ← size, List.take_left]
      exact first
    · rw [blankFields, ← size, List.drop_left]
      exact second
    · rwa [← length, List.take_left]
    · rwa [← length, List.drop_left]

end

end FirstPass

/-! ### Second pass -/

/-- The entries that none of the arrays among the parts takes. -/
def leftBy (parts : List Part) (entries : Entries) : Entries :=
  entries.filter fun entry =>
    parts.all fun part => !part.content.isArray || (slotOf? part.name entry.1).isNone

/-- What one list of parts leaves over goes to the next. -/
theorem leftBy_append (front back : List Part) (entries : Entries) :
    leftBy (front ++ back) entries = leftBy back (leftBy front entries) := by
  simp only [leftBy, List.filter_filter, List.all_append, Bool.and_comm]

/-- What an array takes is not left. -/
theorem mem_leftBy {parts : List Part} {entries : Entries} {entry : String × Value} :
    entry ∈ leftBy parts entries ↔ entry ∈ entries ∧
      ∀ part ∈ parts, part.content.isArray = true → slotOf? part.name entry.1 = none := by
  simp only [leftBy, List.mem_filter, List.all_eq_true, Bool.or_eq_true, Bool.not_eq_true',
    Option.isNone_iff_eq_none]
  refine and_congr_right fun _ => ?_
  constructor
  · intro h part mem isArray
    rcases h part mem with plain | untaken
    · rw [plain] at isArray
      cases isArray
    · exact untaken
  · intro h part mem
    cases isArray : part.content.isArray with
    | false => exact Or.inl rfl
    | true => exact Or.inr (h part mem isArray)

/-- No two arrays among the parts take one entry. -/
def Apart (parts : List Part) : Prop :=
  parts.Pairwise fun a b => a.content.isArray = true → b.content.isArray = true →
    ∀ name taken, slotOf? b.name name = some taken → slotOf? a.name name = none

/-- If the part is an array, it takes the leaves of its items. -/
def Part.Served (entries : Entries) (part : Part) : Prop :=
  ∀ items, part.content.isArray = true → part.value = .list items →
    Serves entries part.name items

/-- What some arrays take is not what the others take. -/
theorem Apart.served {front back : List Part} {entries : Entries} (apart : Apart (front ++ back))
    (served : ∀ part ∈ front ++ back, part.Served entries) :
    ∀ part ∈ back, part.Served (leftBy front entries) := by
  intro part mem items isArray value slot field leaf
  rw [← served part (List.mem_append_right _ mem) items isArray value slot field leaf]
  constructor
  · rintro ⟨name, held, taken⟩
    exact ⟨name, (mem_leftBy.1 held).1, taken⟩
  · rintro ⟨name, held, taken⟩
    refine ⟨name, mem_leftBy.2 ⟨held, ?_⟩, taken⟩
    intro other there isArray'
    exact (List.pairwise_append.1 apart).2.2 other there part mem isArray' isArray name _ taken

/-- The arrays among the parts of a tree are apart. -/
theorem Spread.apart {layout : Layout} {parts : List Part} {tree : Value}
    (spread : Spread layout parts tree) (separate : layout.Separate) : Apart parts := by
  have nodup := separate.names.sublist spread.names
  refine List.Pairwise.imp_of_mem ?_ (List.pairwise_map.1 nodup)
  intro a b ha hb different isArray isArray' name taken found
  cases again : slotOf? a.name name with
  | none => rfl
  | some taken' =>
    have same := spread.eq_of_taken separate ha hb isArray isArray' again found
    exact absurd (congrArg Part.name same) different

/-- Each part finds its entries among those that remain. -/
theorem Spread.served {layout : Layout} {parts : List Part} {tree : Value}
    (spread : Spread layout parts tree) (separate : layout.Separate) :
    ∀ part ∈ parts, part.Served (layout.remaining tree.flatten) :=
  fun _ mem _ isArray value => spread.serves_remaining separate mem isArray value

/-- After both passes nothing is left. -/
theorem Spread.leftBy_remaining {layout : Layout} {parts : List Part} {tree : Value}
    (spread : Spread layout parts tree) (separate : layout.Separate) :
    leftBy parts (layout.remaining tree.flatten) = [] := by
  rw [List.eq_nil_iff_forall_not_mem]
  intro entry mem
  obtain ⟨held, untaken⟩ := mem_leftBy.1 mem
  obtain ⟨part, here, isArray, inSlot⟩ := spread.inSlot_of_mem_remaining separate held
  obtain ⟨_, -, _, _, -, _, -, -, found⟩ := inSlot
  cases found.symm.trans (untaken part here isArray)

/-- The flat form of the item says by itself which slot it is for. -/
structure Addressed (slot : Nat) (item : Value) : Prop where
  /-- No two leaves of the item have one name. -/
  functional : Functional item.leaves
  /-- The item has leaves. -/
  nonempty : item.leaves ≠ []
  /-- The item says its slot. -/
  index : withIndex slot item.flatten = item.flatten

/-- An item whose index is read as a slot is addressed to that slot. -/
theorem addressed_of_index {slot : Nat} {item value : Value} (functional : Functional item.leaves)
    (found : item.flatten.get? DataType.indexField = some value) : Addressed slot item := by
  refine ⟨functional, List.ne_nil_of_mem (SortedMap.mem_of_get?_ofList found), ?_⟩
  rw [withIndex, if_pos (SortedMap.contains_iff.2 ⟨_, found⟩)]

/-- An array takes one group of entries for each of its items. -/
theorem entries_of_addressed {address : String} {items : List Value} {entries : Entries}
    (serves : Serves entries address items)
    (each : ∀ (slot : Nat) (item : Value), items[slot]? = some item → Addressed slot item) :
    (takenSlots address entries).entries = numbered 0 items := by
  have item_of_mem : ∀ item ∈ items, ∃ slot, Addressed slot item := by
    intro item mem
    obtain ⟨slot, found⟩ := List.mem_iff_getElem?.1 mem
    exact ⟨slot, each slot item found⟩
  refine entries_takenSlots serves (fun item mem => ?_) (fun item mem => ?_)
  · obtain ⟨slot, addressed⟩ := item_of_mem item mem
    exact addressed.functional
  · obtain ⟨slot, addressed⟩ := item_of_mem item mem
    exact addressed.nonempty

/-- The item can be written into a blank slot, and is read back from there. -/
structure Writable (element : Layout) (slot : Nat) (item : Value) : Prop
    extends Addressed slot item where
  /-- The bytes of the item. -/
  written : ∃ content, element.write element.blankSlot item.flatten = .ok content ∧
    content.length = element.size ∧ (nestedValue content element).quiet = item.quiet ∧
      Slots.readWord content 0 = slot

/-- If the part is an array, its items can be written. -/
def Part.Writable (part : Part) : Prop :=
  ∀ name capacity element items, part.content = array name capacity element →
    part.value = .list items →
      ∀ (slot : Nat) (item : Value), items[slot]? = some item → element.Writable slot item

/-- An array that is served is filled with its items. -/
theorem writeArrays_blank {address name : String} {capacity : Nat} {element : Layout}
    {items : List Value} {entries : Entries} (formed : (array name capacity element).WellFormed)
    (small : items.length ≤ capacity) (serves : Serves entries address items)
    (writable : ∀ (slot : Nat) (item : Value), items[slot]? = some item →
      element.Writable slot item) :
    ∃ out, writeArrays address (array name capacity element) (array name capacity element).blank
        entries = .ok (out, untaken address entries) ∧
      (nestedValue out (array name capacity element)).quiet = (Value.list items).quiet := by
  have groups := entries_of_addressed serves
    fun slot item found => (writable slot item found).toAddressed
  have room := @holds_blank name capacity element formed
  have blank : ∀ i, 0 ≤ i → i < capacity →
      Slots.slot element (array name capacity element).blank i = element.blankSlot := by
    intro i _ bound
    exact slot_blank formed bound
  have contents : ∀ (i : Nat) (item : Value), items[i]? = some item → ∃ content,
      element.write element.blankSlot (withIndex (0 + i) item.flatten) = .ok content ∧
        content.length = element.size ∧ (nestedValue content element).quiet = item.quiet ∧
          Slots.readWord content 0 = (0 + i : Nat) := by
    intro i item found
    have ready := writable i item found
    rw [Nat.zero_add, ready.index]
    exact ready.written
  obtain ⟨out, folded, length, -, shows, behind⟩ := @foldlM_writeSlot capacity element
    (fun slot item content => (nestedValue content element).quiet = item.quiet ∧
      Slots.readWord content 0 = slot) items 0 _ room (by omega) blank contents
  have filled : Slots.Holds capacity element out := by
    rw [Slots.Holds, length]
    exact room
  simp only [Nat.zero_add] at shows behind
  refine ⟨Slots.recount capacity element out, ?_, ?_⟩
  · rw [writeArrays_array, groups, folded]
    rfl
  · refine nestedValue_of_slots formed.2 formed.1 small ?_ ?_
    · intro slot item found
      rw [Slots.recount, Slots.slot_setCount filled]
      exact shows slot item found
    · intro slot later bound
      rw [Slots.recount, Slots.slot_setCount filled]
      exact behind slot later bound

mutual

/-- The second pass over a staged layout fills its arrays; then the tree is read back. -/
theorem writeArrays_staged : ∀ {layout : Layout} {address : String} {tree : Value}
    {bytes : Bytes} {entries : Entries}, layout.WellFormed → Fits layout tree →
      bytes.length = layout.size → Staged layout bytes tree →
      (∀ part ∈ partsAt address layout tree, part.Writable) →
      (∀ part ∈ partsAt address layout tree, part.Served entries) →
      Apart (partsAt address layout tree) →
        ∃ out, writeArrays address layout bytes entries =
            .ok (out, leftBy (partsAt address layout tree) entries) ∧
          (layout.isPadding = false → (nestedValue out layout).quiet = tree.quiet)
  | scalar _, _, _, bytes, entries, _, _, _, staged, _, _, _ => by
    refine ⟨bytes, ?_, fun _ => staged⟩
    simp [writeArrays, leftBy, partsAt, isArray]
  | enum _, _, _, bytes, entries, _, _, _, staged, _, _, _ => by
    refine ⟨bytes, ?_, fun _ => staged⟩
    simp [writeArrays, leftBy, partsAt, isArray]
  | padding _, _, _, bytes, entries, _, _, _, _, _, _, _ => by
    refine ⟨bytes, ?_, fun plain => by cases plain⟩
    simp [writeArrays, leftBy, partsAt]
  | array name capacity element, address, _, bytes, entries, formed, fits, _, staged, writable,
      served, _ => by
    obtain ⟨items, rfl, small, -⟩ := fits
    obtain rfl : bytes = (array name capacity element).blank := staged
    have serves := served _ (List.mem_singleton.2 rfl) items rfl rfl
    have writable := writable _ (List.mem_singleton.2 rfl) name capacity element items rfl rfl
    obtain ⟨out, written, read⟩ := @writeArrays_blank address name capacity element items entries
      formed small serves writable
    refine ⟨out, ?_, fun _ => read⟩
    rw [written]
    simp [leftBy, partsAt, isArray, untaken]
  | record name fields, address, _, bytes, entries, formed, fits, size, staged, writable, served,
      apart => by
    obtain ⟨held, rfl, sorted, keys, fit⟩ := fits
    obtain ⟨out, written, read⟩ :=
      writeArrayFields_staged formed.1 fit size staged writable served apart
    refine ⟨out, written, fun _ => ?_⟩
    refine quiet_ofEntries sorted (fun key => ?_) read
    rw [keys_nestedFields, keys key]

/-- The second pass over staged fields ends with the bytes of the tree. -/
theorem writeArrayFields_staged : ∀ {fields : List (String × Layout)} {address : String}
    {tree : Value} {bytes : Bytes} {entries : Entries}, FieldsWellFormed fields →
      FieldsFit fields tree → bytes.length = fieldsSize fields → FieldsStaged fields bytes tree →
      (∀ part ∈ partFields address fields tree, part.Writable) →
      (∀ part ∈ partFields address fields tree, part.Served entries) →
      Apart (partFields address fields tree) →
        ∃ out, writeArrayFields address fields bytes entries =
            .ok (out, leftBy (partFields address fields tree) entries) ∧
          ∀ entry ∈ nestedFields out 0 fields, ∃ item, tree.item? entry.1 = some item ∧
            entry.2.quiet = item.quiet
  | [], _, _, bytes, entries, _, _, _, _, _, _, _ => by
    refine ⟨bytes, ?_, fun _ mem => absurd mem List.not_mem_nil⟩
    simp [writeArrayFields, leftBy, partFields]
  | (name, layout) :: rest, address, tree, bytes, entries, formed, fit, size, staged, writable,
      served, apart => by
    obtain ⟨front, back⟩ := length_take_drop size
    obtain ⟨apartHere, apartRest, -⟩ := List.pairwise_append.1 apart
    obtain ⟨here, first, read⟩ := writeArrays_staged formed.2.1 fit.head front staged.1
      (fun part mem => writable part (List.mem_append_left _ mem))
      (fun part mem => served part (List.mem_append_left _ mem)) apartHere
    obtain ⟨others, second, readRest⟩ := writeArrayFields_staged formed.2.2 fit.2 back staged.2
      (fun part mem => writable part (List.mem_append_right _ mem)) (apart.served served) apartRest
    have length := length_writeArrays front first
    refine ⟨here ++ others, ?_, ?_⟩
    · rw [partFields, leftBy_append]
      exact writeArrayFields_cons_eq_ok_iff.2 ⟨here, _, others, first, second, rfl⟩
    · intro entry mem
      rw [nestedFields_cons length] at mem
      rcases List.mem_append.1 mem with mem | mem
      · cases padded : layout.isPadding with
        | true =>
          rw [if_pos padded] at mem
          exact absurd mem List.not_mem_nil
        | false =>
          rw [padded, if_neg (by decide), List.mem_singleton] at mem
          subst mem
          obtain ⟨item, found, -⟩ := fit.1 padded
          refine ⟨item, found, ?_⟩
          rw [← fieldOf_of_entry found]
          exact read padded
      · exact readRest entry mem

end

end DeviceBlob.Layout
