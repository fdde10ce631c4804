import DeviceBlob.Proofs.Blob.Slots
import DeviceBlob.Proofs.Layout.Tiling
import DeviceBlob.SlotArray

/-!
# Parts of a blob

A part of a blob is reached by a path: by the names of nested records and arrays and the numbers of
slots.  A name stands for a way through nested records, and a number for a slot
(`placeOf_eq_ok`).  Whatever is reached is a part of the layout at its offset
(`contains_of_placeOf`), so it is inside the bytes of the blob (`Readable.viewAt`).
-/

namespace DeviceBlob

namespace Layout

/-- There is a part at an offset: the layout itself, something in a field of a record or something
in a slot of an array. -/
inductive Contains : Layout → Nat → Layout → Prop
  | self (layout : Layout) : Contains layout 0 layout
  | field {name : String} {fields : List (String × Layout)} {field : Field} {offset : Nat}
      {part : Layout} (mem : field ∈ (record name fields).fields)
      (below : Contains field.content offset part) :
      Contains (record name fields) (field.offset + offset) part
  | slot {name : String} {capacity slot offset : Nat} {element part : Layout}
      (inside : slot < capacity) (below : Contains element offset part) :
      Contains (array name capacity element) (element.slotOffset slot + offset) part

namespace Contains

variable {layout part : Layout} {offset : Nat}

/-- A part that a layout contains has its bytes within it. -/
theorem within (h : layout.Contains offset part) : Within part layout := by
  induction h with
  | self layout => exact .self layout
  | field mem _ ih => exact .field mem ih
  | slot _ _ ih => exact .element ih

/-- The parts of a well-formed layout are well formed. -/
theorem wellFormed (h : layout.Contains offset part) (formed : layout.WellFormed) :
    part.WellFormed :=
  formed.within h.within

/-- A part is inside the layout. -/
theorem bounds (h : layout.Contains offset part) : offset + part.size ≤ layout.size := by
  induction h with
  | self layout => exact Nat.le_of_eq (Nat.zero_add _)
  | @field name fields field offset part mem _ ih =>
    have tiles : Tiles 0 (record name fields).size (record name fields).fields := tiles_fields rfl
    have inside := (tiles.bounds.2 field mem).2
    omega
  | @slot name capacity slot offset element part inside _ ih =>
    have last : element.slotOffset slot + element.size ≤ element.slotOffset capacity :=
      Slots.slotOffset_add_le inside
    have whole : (array name capacity element).size = element.slotOffset capacity := rfl
    omega

/-- A part of a part is a part, at the sum of the offsets. -/
theorem trans {inner : Layout} {start : Nat} (h : layout.Contains offset part)
    (below : part.Contains start inner) : layout.Contains (offset + start) inner := by
  induction h with
  | self layout => rwa [Nat.zero_add]
  | field mem _ ih =>
    rw [Nat.add_assoc]
    exact .field mem (ih below)
  | slot inside _ ih =>
    rw [Nat.add_assoc]
    exact .slot inside (ih below)

end Contains

/-- Fields that lead through nested records to something in them. -/
inductive Reaches : Layout → List Field → Layout → Prop
  | stop (layout : Layout) : Reaches layout [] layout
  | step {name : String} {fields : List (String × Layout)} {field : Field} {rest : List Field}
      {part : Layout} (mem : field ∈ (record name fields).fields)
      (below : Reaches field.content rest part) : Reaches (record name fields) (field :: rest) part

namespace Reaches

variable {layout part : Layout} {way : List Field}

/-- What a way through nested records leads to is a part of the first. -/
theorem contains (h : Reaches layout way part) : layout.Contains (distance way) part := by
  induction h with
  | stop layout => exact .self layout
  | step mem _ ih => exact .field mem ih

/-- In an element everything but its index is behind its index. -/
theorem four_le {field : Field} {rest : List Field} (starts : layout.StartsWithIndex)
    (h : Reaches layout (field :: rest) part) :
    4 ≤ distance (field :: rest) ∨
      field = ⟨DataType.indexField, 0, scalar .int32⟩ ∧ rest = [] ∧ part = scalar .int32 := by
  obtain ⟨name, others, rfl⟩ := starts
  cases h with
  | step mem below =>
    rcases List.mem_cons.1 mem with rfl | mem
    · cases below
      exact Or.inr ⟨rfl, rfl, rfl⟩
    · have behind := ((tiles_placeFields 4 others).bounds.2 field mem).1
      exact Or.inl (Nat.le_trans behind (Nat.le_add_right _ _))

end Reaches

/-- What leads through record fields also reaches. -/
theorem Leads.reaches {layout last : Layout} {way : List Field} (h : Leads layout way last) :
    Reaches layout way last := by
  induction h with
  | stop => exact .stop _
  | step mem _ ih => exact .step mem ih

/-- An accessor of a record is reached through its fields. -/
theorem reaches_accessor {name : String} {fields : List (String × Layout)} {place : Field}
    (mem : place ∈ (record name fields).accessors) :
    ∃ field rest, Reaches (record name fields) (field :: rest) place.content ∧
      place.name = addressOf "" (field :: rest) ∧ place.offset = distance (field :: rest) := by
  obtain ⟨field, rest, among, leads, named, starts⟩ := mem_accessors_iff.1 mem
  exact ⟨field, rest, .step among leads.reaches, named, starts⟩

/-- A layout that is no record and no array is its only accessor. -/
theorem accessor_of_leaf {layout : Layout} {place : Field} (isRecord : layout.isRecord = false)
    (isArray : layout.isArray = false) (mem : place ∈ layout.accessors) :
    place = ⟨Value.rootField, 0, layout⟩ := by
  cases layout with
  | record name fields => cases isRecord
  | array name capacity element => cases isArray
  | _ => exact List.mem_singleton.1 mem

mutual

/-- A nested record is reached through fields whose joined names are the name that it is found
under. -/
theorem reaches_of_recordIn? {name : String} : ∀ {layout : Layout} {offset : Nat} {place : Field},
    recordIn? name offset layout = some place →
      ∃ field rest, Reaches layout (field :: rest) place.content ∧
        place.offset = offset + distance (field :: rest) ∧ place.content.isRecord = true ∧
        name = "_".intercalate ((field :: rest).map (·.name))
  | scalar _, _, _, h | enum _, _, _, h | padding _, _, _, h | array _ _ _, _, _, h => by
    simp [recordIn?] at h
  | record typeName fields, offset, place, h => by
    have found : recordAmong? name (offset + 0) fields = some place := h
    obtain ⟨field, rest, mem, below, starts, kind⟩ := reaches_of_recordAmong? found
    exact ⟨field, rest, .step mem below, starts, kind⟩

/-- A record found under a name is reached along fields whose names, joined, are that name. -/
theorem reaches_of_recordAmong? {name : String} : ∀ {fields : List (String × Layout)}
    {offset start : Nat} {place : Field}, recordAmong? name (offset + start) fields = some place →
      ∃ field rest, field ∈ placeFields start fields ∧ Reaches field.content rest place.content ∧
        place.offset = offset + distance (field :: rest) ∧ place.content.isRecord = true ∧
        name = "_".intercalate ((field :: rest).map (·.name))
  | [], _, _, _, h => by simp [recordAmong?] at h
  | (other, layout) :: rest, offset, start, place, h => by
    simp only [recordAmong?, Option.orElse_eq_orElse, Option.orElse_eq_or, Option.or_eq_some_iff] at h
    rcases h with here | ⟨-, there⟩
    · refine ⟨⟨other, start, layout⟩, ?_⟩
      cases isRecord : layout.isRecord with
      | false => simp [isRecord] at here
      | true =>
        simp only [isRecord, Bool.not_true, Bool.false_eq_true, if_false] at here
        split at here
        · next same =>
          cases here
          exact ⟨[], List.mem_cons_self, .stop _, rfl, isRecord, same.symm⟩
        · obtain ⟨below, taken, found⟩ := Option.bind_eq_some_iff.1 here
          obtain ⟨field, others, reaches, starts, kind, named⟩ := reaches_of_recordIn? found
          refine ⟨field :: others, List.mem_cons_self, reaches,
            starts.trans (Nat.add_assoc _ _ _), kind, ?_⟩
          rw [Name.within?_eq_some_iff_eq_append.1 taken, named]
          exact String.intercalate_cons_cons.symm
    · rw [Nat.add_assoc] at there
      obtain ⟨field, others, mem, found⟩ := reaches_of_recordAmong? there
      exact ⟨field, others, List.mem_cons_of_mem _ mem, found⟩

end

mutual

/-- Under the joined names of fields that lead to a nested record a record is found. -/
theorem isSome_recordIn? : ∀ {layout part : Layout} {field : Field} {rest : List Field}
    (offset : Nat), Reaches layout (field :: rest) part → part.isRecord = true →
      (recordIn? ("_".intercalate ((field :: rest).map (·.name))) offset layout).isSome = true
  | record _ _, _, _, _, offset, .step mem below, isRecord =>
    isSome_recordAmong? offset mem below isRecord

/-- Under the joined names of the fields that reach a record some record is found. -/
theorem isSome_recordAmong? : ∀ {fields : List (String × Layout)} {part : Layout} {field : Field}
    {rest : List Field} {start : Nat} (offset : Nat), field ∈ placeFields start fields →
      Reaches field.content rest part → part.isRecord = true →
      (recordAmong? ("_".intercalate ((field :: rest).map (·.name))) offset fields).isSome = true
  | [], _, _, _, _, _, mem, _, _ => absurd mem List.not_mem_nil
  | (other, layout) :: others, part, field, rest, start, offset, mem, below, isRecord => by
    simp only [recordAmong?, Option.orElse_eq_orElse, Option.orElse_eq_or, Option.isSome_or,
      Bool.or_eq_true]
    -- A field in front may lead to a record of that name too: which one is found does not matter.
    rcases List.mem_cons.1 mem with rfl | mem
    · refine Or.inl ?_
      cases rest with
      | nil =>
        cases below
        simp [isRecord]
      | cons next more =>
        have inner := isSome_recordIn? offset below isRecord
        have opened : layout.isRecord = true := by
          cases below
          rfl
        have taken : Name.within? other
            ("_".intercalate (other :: next.name :: more.map (·.name))) =
              some ("_".intercalate (next.name :: more.map (·.name))) :=
          Name.within?_eq_some_iff_eq_append.2 String.intercalate_cons_cons
        simp only [opened, Bool.not_true, Bool.false_eq_true, if_false, List.map_cons]
        split
        · rfl
        · rw [taken]
          exact inner
    · exact Or.inr (isSome_recordAmong? _ mem below isRecord)

end

end Layout

namespace Blob

/-! ### Paths -/

/-- How a part of a blob is chosen. -/
inductive Selector where
  | record (name : String)
  | array (name : String)
  | slot (slot : Nat)

/-- The place of the part that is chosen. -/
def placeOf (blob : Blob) : Selector → Except Error Field
  | .record name => blob.recordPlace name
  | .array name => blob.arrayPlace name
  | .slot slot => do
    let array ← SlotArray.ofBytes blob.layout blob.bytes
    array.checkSlot slot
    return array.place slot

/-- The part at the end of a path. -/
def viewAt (blob : Blob) : List Selector → Except Error Blob
  | [] => .ok blob
  | selector :: rest => do (blob.part (← blob.placeOf selector)).viewAt rest

/-- The bytes of the blob are enough for its layout, which is one that the compiler makes. -/
structure Readable (blob : Blob) : Prop where
  formed : blob.layout.WellFormed
  room : blob.layout.size ≤ blob.bytes.length

open Layout

variable {blob view : Blob} {place : Field}

/-- An accessor that is found by its name is one of the layout. -/
theorem accessor_eq_ok {name : String} (h : blob.accessor name = .ok place) :
    place ∈ blob.layout.accessors ∧ place.name = name := by
  unfold accessor at h
  split at h
  · next same =>
    cases h
    exact ⟨List.mem_of_find?_eq_some same, by simpa using List.find?_some same⟩
  · cases h

/-- An array that is found by a name is an accessor of that name. -/
theorem arrayPlace_eq_ok {name : String} (h : blob.arrayPlace name = .ok place) :
    place ∈ blob.layout.accessors ∧ place.name = name ∧ place.content.isArray = true := by
  obtain ⟨found, accessed, checked⟩ := bind_eq_ok.1 h
  split at checked
  · next holds =>
    cases checked
    obtain ⟨mem, named⟩ := accessor_eq_ok accessed
    exact ⟨mem, named, holds⟩
  · cases checked

/-- A slot that is found lies in an array, below its capacity. -/
theorem slotPlace_eq_ok {slot : Nat} (h : blob.placeOf (.slot slot) = .ok place) :
    ∃ name capacity element, blob.layout = .array name capacity element ∧ slot < capacity ∧
      place = ⟨toString slot, element.slotOffset slot, element⟩ := by
  obtain ⟨array, opened, h⟩ := bind_eq_ok.1 h
  obtain ⟨_, checked, same⟩ := bind_eq_ok.1 h
  cases same
  unfold SlotArray.ofBytes at opened
  split at opened
  · next name capacity element same =>
    split at opened
    · cases opened
    · cases opened
      refine ⟨name, capacity, element, same, ?_, rfl⟩
      unfold SlotArray.checkSlot at checked
      split at checked
      · next inside => exact inside
      · cases checked
  · cases opened

/-- The part that is chosen is a record or an array that is reached through nested records, or a
slot of an array. -/
theorem placeOf_eq_ok {selector : Selector} (h : blob.placeOf selector = .ok place) :
    (∃ field rest, Reaches blob.layout (field :: rest) place.content ∧
      place.offset = distance (field :: rest) ∧ place.content ≠ .scalar .int32) ∨
    ∃ name capacity element slot, blob.layout = .array name capacity element ∧ slot < capacity ∧
      place = ⟨toString slot, element.slotOffset slot, element⟩ := by
  cases selector with
  | record name =>
    simp only [placeOf, recordPlace] at h
    split at h
    · next found same =>
      cases h
      obtain ⟨field, rest, reaches, starts, isRecord, -⟩ := reaches_of_recordIn? same
      refine Or.inl ⟨field, rest, reaches, starts.trans (Nat.zero_add _), ?_⟩
      rintro (scalar : found.content = .scalar .int32)
      rw [scalar] at isRecord
      cases isRecord
    · cases h
  | array name =>
    obtain ⟨mem, -, holds⟩ := arrayPlace_eq_ok h
    have noScalar : place.content ≠ .scalar .int32 := by
      intro scalar
      rw [scalar] at holds
      cases holds
    cases same : blob.layout with
    | record typeName fields =>
      rw [same] at mem
      obtain ⟨field, rest, reaches, -, starts⟩ := reaches_accessor mem
      exact Or.inl ⟨field, rest, reaches, starts, noScalar⟩
    | array typeName capacity element =>
      -- The two header fields of an array are no arrays.
      rw [same, Layout.accessors_array] at mem
      simp only [List.mem_cons, List.not_mem_nil, or_false] at mem
      rcases mem with rfl | rfl <;> cases holds
    | _ =>
      rw [same] at mem
      obtain rfl := Layout.accessor_of_leaf rfl rfl mem
      cases holds
  | slot slot =>
    obtain ⟨name, capacity, element, same, inside, rfl⟩ := slotPlace_eq_ok h
    exact Or.inr ⟨name, capacity, element, slot, same, inside, rfl⟩

/-- The part that is chosen is a part of the layout. -/
theorem contains_of_placeOf {selector : Selector} (h : blob.placeOf selector = .ok place) :
    blob.layout.Contains place.offset place.content := by
  rcases placeOf_eq_ok h with ⟨field, rest, reaches, starts, -⟩ |
    ⟨name, capacity, element, slot, same, inside, rfl⟩
  · rw [starts]
    exact reaches.contains
  · rw [same]
    exact .slot inside (.self element)

namespace Readable

/-- A place of the layout is inside the bytes. -/
theorem room_of_contains (h : blob.Readable)
    (contains : blob.layout.Contains place.offset place.content) :
    place.offset + place.content.size ≤ blob.bytes.length :=
  Nat.le_trans contains.bounds h.room

/-- A part of a readable blob is readable. -/
theorem part (h : blob.Readable) (contains : blob.layout.Contains place.offset place.content) :
    (blob.part place).Readable where
  formed := contains.wellFormed h.formed
  room := Nat.le_of_eq (Bytes.length_slice (h.room_of_contains contains)).symm

/-- What a path leads to has all its bytes. -/
theorem viewAt {blob view : Blob} (h : blob.Readable) : ∀ {path : List Selector},
    blob.viewAt path = .ok view → view.Readable
  | [], found => by
    cases found
    exact h
  | selector :: rest, found => by
    obtain ⟨place, chosen, below⟩ := bind_eq_ok.1 found
    exact (h.part (contains_of_placeOf chosen)).viewAt below

end Readable

end Blob

end DeviceBlob
