import DeviceBlob.Proofs.Blob.Infer
import DeviceBlob.Proofs.Blob.Stored
import DeviceBlob.Proofs.Blob.View
import DeviceBlob.Proofs.Blob.Write

/-!
# Orderly bytes

Bytes are `Orderly` under a layout if its scalars and enums hold what a value is stored as, and if
every array has its capacity and the number of its elements in its header.  This is asked of all
slots, whether they hold an element or not, because the headers in an empty slot are looked at when
a blob is opened.  A blank blob is orderly (`orderly_blank`), a part of orderly bytes is
(`Orderly.part`) and can be replaced by another that is (`Orderly.splice`), and a tree that is
written into orderly bytes leaves orderly bytes (`orderly_write`).
-/

namespace DeviceBlob

namespace Slots

/-- An array has its capacity in its header and holds something of a kind in every slot. -/
structure Filled (capacity : Nat) (element : Layout) (kind : Bytes → Prop) (bytes : Bytes) :
    Prop where
  /-- There are exactly the bytes that the layout covers. -/
  length : bytes.length = Layout.headerSize + capacity * element.size
  /-- The header holds the capacity. -/
  header : bytes.slice 0 4 = .ofInt 4 capacity
  /-- Every slot is of the kind, whether it holds an element or not. -/
  each : ∀ i < capacity, kind (slot element bytes i)

variable {capacity i : Nat} {element : Layout} {kind : Bytes → Prop} {bytes content : Bytes}

namespace Filled

/-- Filled slots have room. -/
theorem room (h : Filled capacity element kind bytes) : Holds capacity element bytes :=
  Nat.le_of_eq h.length.symm

/-- A slot can be replaced by another of the kind. -/
theorem setSlot (h : Filled capacity element kind bytes) (inside : i < capacity)
    (size : content.length = element.size) (new : kind content) :
    Filled capacity element kind (setSlot element bytes i content) where
  length := (length_setSlot h.room inside size).trans h.length
  header := (slice_setSlot_header h.room inside (by decide)).trans h.header
  each := by
    intro j bound
    by_cases same : j = i
    · subst same
      rw [slot_setSlot_same h.room inside size]
      exact new
    · rw [slot_setSlot_other h.room inside size same]
      exact h.each j bound

/-- Slots stay filled when the count is written. -/
theorem setCount (h : Filled capacity element kind bytes) (count : Nat) :
    Filled capacity element kind (setCount bytes count) where
  length := (length_setCount h.room count).trans h.length
  header :=
    (slice_writeWord_apart (by have := h.room.header; omega) (Or.inl (by decide))).trans h.header
  each := by
    intro j bound
    rw [slot_setCount h.room]
    exact h.each j bound

/-- Counting makes the header right. -/
theorem recount (h : Filled capacity element kind bytes) :
    Filled capacity element kind (recount capacity element bytes) ∧
      Counted capacity element (Slots.recount capacity element bytes) :=
  ⟨h.setCount _, counted_recount h.room⟩

end Filled

end Slots

namespace Layout

mutual

/-- The bytes are as every write leaves them: what is read from a scalar or an enum would be written
as the same bytes, and the headers of all arrays are right. -/
def Orderly : Layout → Bytes → Prop
  | scalar kind, bytes => kind.Stored bytes
  | enum type, bytes => type.Stored bytes
  | padding kind, bytes => bytes.length = kind.width
  | record _ fields, bytes => FieldsOrderly fields bytes
  | array _ capacity element, bytes =>
    Slots.Filled capacity element (Orderly element) bytes ∧ Slots.Counted capacity element bytes

/-- The same for consecutive fields. -/
def FieldsOrderly : List (String × Layout) → Bytes → Prop
  | [], bytes => bytes = []
  | (_, layout) :: rest, bytes =>
    Orderly layout (bytes.take layout.size) ∧ FieldsOrderly rest (bytes.drop layout.size)

end

mutual

/-- Orderly bytes are as many as the layout says. -/
theorem Orderly.length : ∀ {layout : Layout} {bytes : Bytes}, layout.Orderly bytes →
    bytes.length = layout.size
  | scalar _, _, h => Scalar.Stored.length h
  | enum _, _, h => EnumType.Stored.length h
  | padding _, _, h => h
  | record _ _, _, h => FieldsOrderly.length h
  | array _ _ _, _, h => h.1.length

/-- So are those of consecutive fields. -/
theorem FieldsOrderly.length : ∀ {fields : List (String × Layout)} {bytes : Bytes},
    FieldsOrderly fields bytes → bytes.length = fieldsSize fields
  | [], _, h => by rw [show _ = [] from h]; rfl
  | (_, layout) :: rest, bytes, h => by
    have here := h.1.length
    have there := FieldsOrderly.length h.2
    rw [List.length_take] at here
    rw [List.length_drop] at there
    show bytes.length = layout.size + fieldsSize rest
    omega

end

/-- Fields one behind the other are orderly if each is. -/
theorem fieldsOrderly_append {name : String} {layout : Layout} {rest : List (String × Layout)}
    {front back : Bytes} (here : layout.Orderly front) (there : FieldsOrderly rest back) :
    FieldsOrderly ((name, layout) :: rest) (front ++ back) := by
  have length := here.length
  rw [FieldsOrderly, List.take_left' length, List.drop_left' length]
  exact ⟨here, there⟩

/-- Fields are orderly if each of them is at its place. -/
theorem fieldsOrderly_iff {whole : Bytes} {fields : List (String × Layout)} {offset : Nat} :
    FieldsOrderly fields (whole.slice offset (fieldsSize fields)) ↔
      ∀ field ∈ placeFields offset fields,
        field.content.Orderly (whole.slice field.offset field.content.size) := by
  induction fields generalizing offset with
  | nil => simp [FieldsOrderly, placeFields, Bytes.slice]
  | cons field rest ih =>
    rw [FieldsOrderly, fieldsSize_cons, Bytes.take_slice, Bytes.drop_slice, ih, placeFields,
      List.forall_mem_cons]

/-- The bytes of a record are orderly exactly if those of all its fields are. -/
theorem orderly_record_iff {name : String} {fields : List (String × Layout)} {bytes : Bytes}
    (length : bytes.length = fieldsSize fields) :
    (record name fields).Orderly bytes ↔ ∀ field ∈ (record name fields).fields,
      field.content.Orderly (bytes.slice field.offset field.content.size) := by
  have all := @fieldsOrderly_iff bytes fields 0
  rwa [Bytes.slice_all length] at all

variable {layout inner : Layout} {way : List Field}

/-! ### Parts -/

/-- What nested records lead to is orderly. -/
theorem Orderly.part (reaches : Reaches layout way inner) : ∀ {bytes : Bytes},
    layout.Orderly bytes → inner.Orderly (bytes.slice (distance way) inner.size) := by
  induction reaches with
  | stop layout =>
    intro bytes h
    rw [show distance [] = 0 from rfl, Bytes.slice_all h.length]
    exact h
  | @step name fields field rest inner mem below ih =>
    intro bytes h
    have here := (orderly_record_iff h.length).1 h field mem
    have found := ih here
    rwa [Bytes.slice_slice below.contains.bounds] at found

/-- What nested records lead to can be replaced. -/
theorem Orderly.splice (reaches : Reaches layout way inner) {content : Bytes}
    (new : inner.Orderly content) : ∀ {bytes : Bytes}, layout.Orderly bytes →
      layout.Orderly (bytes.splice (distance way) content) := by
  induction reaches with
  | stop layout =>
    intro bytes h
    rw [show distance [] = 0 from rfl, Bytes.splice_all (new.length.trans h.length.symm)]
    exact new
  | @step name fields field rest inner mem below ih =>
    intro bytes h
    have length : bytes.length = fieldsSize fields := h.length
    have inside := below.contains.bounds
    rw [← new.length] at inside
    have bounds := (Contains.bounds (.field mem (.self _)) : field.offset + 0 +
      field.content.size ≤ (record name fields).size)
    have room : field.offset + field.content.size ≤ bytes.length := by
      rw [length]
      exact bounds
    have kept : (bytes.splice (field.offset + distance rest) content).length =
        fieldsSize fields := by
      rw [Bytes.length_splice (by omega), length]
    refine (orderly_record_iff kept).2 ?_
    intro other among
    have each := (orderly_record_iff length).1 h
    have tiles : Tiles 0 (record name fields).size (record name fields).fields := tiles_fields rfl
    rcases tiles.apart mem among with rfl | apart
    · rw [Bytes.slice_splice_within inside room]
      exact ih new (each other among)
    · rw [Bytes.slice_splice_apart (by omega) (by omega)]
      exact each other among

/-- An element can be given another index. -/
theorem Orderly.writeIndex (starts : layout.StartsWithIndex) {bytes : Bytes}
    (h : layout.Orderly bytes) (n : Int) : layout.Orderly (Slots.writeWord bytes 0 n) := by
  obtain ⟨name, rest, rfl⟩ := starts
  have index : Reaches (record name ((DataType.indexField, scalar .int32) :: rest))
      [⟨DataType.indexField, 0, scalar .int32⟩] (scalar .int32) :=
    .step List.mem_cons_self (.stop _)
  exact Orderly.splice index (Scalar.stored_int32 (Slots.length_word n)) h

/-! ### Blank bytes -/

mutual

/-- A blob without values is orderly. -/
theorem orderly_blank : ∀ {layout : Layout}, layout.WellFormed → layout.Orderly layout.blank
  | scalar kind, _ => kind.stored_zeros
  | enum type, _ => type.stored_zeros
  | padding kind, _ => Bytes.length_zeros kind.width
  | record _ _, formed => orderly_blankFields formed.1
  | array name capacity element, formed => by
    refine ⟨⟨length_blank formed, slice_blank_capacity, ?_⟩, ?_⟩
    · intro i inside
      rw [slot_blank formed inside]
      exact (orderly_blank formed.2).writeIndex formed.1 Slots.emptyIndex
    · rw [Slots.Counted, present_blank formed]
      exact slice_blank_count

/-- Blank fields are orderly. -/
theorem orderly_blankFields : ∀ {fields : List (String × Layout)}, FieldsWellFormed fields →
    FieldsOrderly fields (blankFields fields)
  | [], _ => rfl
  | (_, _) :: _, formed =>
    fieldsOrderly_append (orderly_blank formed.2.1) (orderly_blankFields formed.2.2)

end

/-! ### Writing a tree -/

variable {owner : String} {flat : SortedMap String Value}

mutual

/-- Bytes stay orderly when the leaves of a tree are written. -/
theorem orderly_writeLeaves : ∀ {layout : Layout} {address : String} {bytes out : Bytes},
    layout.Orderly bytes → writeLeaves owner flat address layout bytes = .ok out →
      layout.Orderly out
  | scalar _, _, _, _, _, h => by
    obtain ⟨value, -, written⟩ := writeLeaves_scalar_eq_ok_iff.1 h
    exact Scalar.stored_of_write written
  | enum _, _, _, _, _, h => by
    obtain ⟨value, -, written⟩ := writeLeaves_enum_eq_ok_iff.1 h
    exact EnumType.stored_of_write written
  | padding _, _, _, _, before, h | array _ _ _, _, _, _, before, h => by
    cases h
    exact before
  | record _ _, _, _, _, before, h => orderly_writeLeafFields before h

/-- So do those of consecutive fields. -/
theorem orderly_writeLeafFields : ∀ {fields : List (String × Layout)} {address : String}
    {bytes out : Bytes}, FieldsOrderly fields bytes →
      writeLeafFields owner flat address fields bytes = .ok out → FieldsOrderly fields out
  | [], _, _, _, before, h => by
    cases h
    exact before
  | (_, _) :: _, _, _, _, before, h => by
    obtain ⟨here, others, first, second, rfl⟩ := writeLeafFields_cons_eq_ok_iff.1 h
    exact fieldsOrderly_append (orderly_writeLeaves before.1 first)
      (orderly_writeLeafFields before.2 second)

end

mutual

/-- Bytes stay orderly when the arrays of a tree are written. -/
theorem orderly_writeArrays : ∀ {layout : Layout} {address : String} {bytes out : Bytes}
    {entries left : Entries}, layout.Orderly bytes →
      writeArrays address layout bytes entries = .ok (out, left) → layout.Orderly out
  | scalar _, _, _, _, _, _, before, h | enum _, _, _, _, _, _, before, h
  | padding _, _, _, _, _, _, before, h => by
    cases h
    exact before
  | record _ _, _, _, _, _, _, before, h => orderly_writeArrayFields before h
  | array name capacity element, _, _, _, _, _, before, h => by
    rw [writeArrays_array, bind_eq_ok] at h
    obtain ⟨written, filled, same⟩ := h
    cases same
    -- The count may be wrong until all slots are written.
    have each : Slots.Filled capacity element element.Orderly written := by
      refine foldlM_invariant (Slots.Filled capacity element element.Orderly) ?_ before.1 filled
      rintro b ⟨slot, flat⟩ - next kept step
      obtain ⟨inside, content, put, rfl⟩ := writeSlot_eq_ok_iff.1 step
      obtain ⟨leaves, rest, first, second, -⟩ := write_eq_ok_iff.1 put
      have new := orderly_writeArrays (orderly_writeLeaves (kept.each slot inside) first) second
      exact kept.setSlot inside new.length new
    exact each.recount

/-- So do those of consecutive fields. -/
theorem orderly_writeArrayFields : ∀ {fields : List (String × Layout)} {address : String}
    {bytes out : Bytes} {entries left : Entries}, FieldsOrderly fields bytes →
      writeArrayFields address fields bytes entries = .ok (out, left) → FieldsOrderly fields out
  | [], _, _, _, _, _, before, h => by
    cases h
    exact before
  | (_, _) :: _, _, _, _, _, _, before, h => by
    obtain ⟨here, between, others, first, second, rfl⟩ := writeArrayFields_cons_eq_ok_iff.1 h
    exact fieldsOrderly_append (orderly_writeArrays before.1 first)
      (orderly_writeArrayFields before.2 second)

end

/-- A tree that is written into orderly bytes leaves orderly bytes. -/
theorem orderly_write {bytes out : Bytes} (before : layout.Orderly bytes)
    (h : layout.write bytes flat = .ok out) : layout.Orderly out := by
  obtain ⟨leaves, rest, first, second, -⟩ := write_eq_ok_iff.1 h
  exact orderly_writeArrays (orderly_writeLeaves before first) second

/-! ### Headers -/

/-- The capacities in a field are among those of the record. -/
theorem capacitiesUnder_subset {parent : String} {field : Field} :
    ∀ {offset : Nat} {fields : List (String × Layout)}, field ∈ placeFields offset fields →
      field.content.capacitiesUnder (Name.join parent field.name) ⊆ fieldCapacities parent fields
  | _, [], mem => absurd mem List.not_mem_nil
  | _, (_, _) :: _, mem => by
    rcases List.mem_cons.1 mem with rfl | mem
    · exact List.subset_append_left _ _
    · exact fun entry here => List.mem_append_right _ (capacitiesUnder_subset mem here)

/-- The capacities of a part are among those of the whole, up to the parent that they are named
after. -/
theorem Contains.capacitiesUnder_subset {offset : Nat} (h : layout.Contains offset inner) :
    ∀ parent, ∃ name, inner.capacitiesUnder name ⊆ layout.capacitiesUnder parent := by
  induction h with
  | self layout => exact fun parent => ⟨parent, List.Subset.refl _⟩
  | field mem _ ih =>
    intro parent
    obtain ⟨name, below⟩ := ih (Name.join parent _)
    exact ⟨name, List.Subset.trans below (Layout.capacitiesUnder_subset mem)⟩
  | slot _ _ ih =>
    intro parent
    obtain ⟨name, below⟩ := ih (Name.join parent DataType.itemPrefix)
    exact ⟨name, List.Subset.trans below (List.subset_cons_self _ _)⟩

mutual

/-- Orderly bytes hold all capacities, as far as these fit a header. -/
theorem headed_of_orderly {whole : Bytes} : ∀ {layout : Layout} {offset : Nat} (parent : String),
    (∀ entry ∈ layout.capacitiesUnder parent, entry.2 ≤ 2147483647) →
      layout.Orderly (whole.slice offset layout.size) → layout.Headed whole offset
  | scalar _, _, _, _, _ | enum _, _, _, _, _ | padding _, _, _, _, _ => trivial
  | record _ _, _, parent, small, h => fieldsHeaded_of_orderly parent small h
  | array name capacity element, offset, parent, small, h => by
    obtain ⟨⟨-, header, each⟩, -⟩ := h
    constructor
    · have word : whole.slice (offset + 0) 4 = .ofInt 4 capacity := by
        rw [← header, Bytes.slice_slice]
        rw [size_array, headerSize]
        omega
      show Bytes.toInt (whole.slice offset 4) = capacity
      rw [Nat.add_zero] at word
      rw [word]
      exact Slots.toInt_word (Slots.isWord_of_le (small _ List.mem_cons_self))
    · intro slot inside
      have here := each slot inside
      have bounds : element.slotOffset slot + element.size ≤ (array name capacity element).size :=
        Slots.slotOffset_add_le inside
      rw [Slots.slot, Bytes.slice_slice bounds] at here
      exact headed_of_orderly _ (fun entry mem => small entry (List.mem_cons_of_mem _ mem)) here

/-- So do those of consecutive fields. -/
theorem fieldsHeaded_of_orderly {whole : Bytes} : ∀ {fields : List (String × Layout)} {offset : Nat}
    (parent : String), (∀ entry ∈ fieldCapacities parent fields, entry.2 ≤ 2147483647) →
      FieldsOrderly fields (whole.slice offset (fieldsSize fields)) →
        FieldsHeaded whole offset fields
  | [], _, _, _, _ => trivial
  | (name, layout) :: rest, offset, parent, small, h => by
    rw [FieldsOrderly, fieldsSize_cons, Bytes.take_slice, Bytes.drop_slice] at h
    exact ⟨headed_of_orderly _ (fun entry mem => small entry (List.mem_append_left _ mem)) h.1,
      fieldsHeaded_of_orderly parent (fun entry mem => small entry (List.mem_append_right _ mem))
        h.2⟩

end

end Layout

end DeviceBlob
