import DeviceBlob.Blob.Basic
import DeviceBlob.Proofs.Blob.Slots
import DeviceBlob.Proofs.Layout.Fields

/-!
# What a blob shows as text

The text form of a blob has an entry for each scalar and enum and one for the capacity of each
array.  Up to the slots that hold no element these are the same for all blobs of a layout: `shown`
lists them all, and the text form of some bytes has those that are visible there (`textsAt_eq`).

Blobs of one layout are `Alike` if their scalars and enums have the same texts, if the same slots of
their arrays hold elements, and if these are alike again.  That is so exactly if each of the shown
fields is visible in both blobs or in neither, and has the same text where it is
(`alike_iff_forall_shown`).
-/

namespace DeviceBlob

/-- A field that is shown as text if all the slots that it is in hold an element. -/
structure Shown extends Field where
  /-- Where these slots start. -/
  slots : List Nat

namespace Shown

/-- The bytes at an offset are those of a slot that holds an element. -/
def Occupied (bytes : Bytes) (start : Nat) : Prop := Slots.emptyIndex < Slots.readWord bytes start

instance (bytes : Bytes) (start : Nat) : Decidable (Occupied bytes start) :=
  inferInstanceAs (Decidable (_ < _))

/-- All the slots that the field is in hold an element. -/
def isVisible (bytes : Bytes) (shown : Shown) : Bool :=
  shown.slots.all fun start => Occupied bytes start

/-- What the field is shown as; an array is shown as its capacity. -/
def text (bytes : Bytes) (shown : Shown) : String :=
  match shown.content with
  | .array _ capacity _ => toString capacity
  | content => (content.valueOf (bytes.slice shown.offset content.size)).text

/-- The entry of the text form for the field. -/
def entry (bytes : Bytes) (shown : Shown) : String × String := (shown.name, shown.text bytes)

/-- An array is shown as the same in all blobs. -/
theorem text_of_isArray {shown : Shown} (isArray : shown.content.isArray = true) (a b : Bytes) :
    shown.text a = shown.text b := by
  obtain ⟨name, capacity, element, array⟩ := Layout.isArray_iff.1 isArray
  rw [text, text, array]

/-- The text of a field that is not an array is read from its bytes. -/
theorem text_of_plain {shown : Shown} (plain : shown.content.isArray = false) (bytes : Bytes) :
    shown.text bytes =
      (shown.content.valueOf (bytes.slice shown.offset shown.content.size)).text := by
  unfold text
  cases content : shown.content with
  | array _ _ _ =>
    rw [content] at plain
    cases plain
  | _ => rfl

/-- A field is visible when every slot around it is occupied. -/
theorem isVisible_iff {bytes : Bytes} {shown : Shown} :
    shown.isVisible bytes = true ↔ ∀ start ∈ shown.slots, Occupied bytes start := by
  simp [isVisible]

end Shown

namespace Layout

open Shown (Occupied)

mutual

/-- The fields that a layout in the given slots can show, with an address and from an offset on. -/
def shownAt (slots : List Nat) (address : String) (offset : Nat) : Layout → List Shown
  | record _ fields => shownFields slots address offset fields
  | padding _ => []
  | array name capacity element =>
    ⟨⟨Name.join address DataType.capacityParameter, offset, array name capacity element⟩, slots⟩ ::
      (List.range capacity).flatMap fun slot =>
        shownAt ((offset + slotOffset element slot) :: slots) (Name.join address (toString slot))
          (offset + slotOffset element slot) element
  | scalar kind => [⟨⟨address, offset, scalar kind⟩, slots⟩]
  | enum type => [⟨⟨address, offset, enum type⟩, slots⟩]

/-- The same for consecutive fields. -/
def shownFields (slots : List Nat) (address : String) (offset : Nat) :
    List (String × Layout) → List Shown
  | [] => []
  | (name, layout) :: rest =>
    shownAt slots (Name.join address name) offset layout ++
      shownFields slots address (offset + layout.size) rest

end

/-- The fields that a blob can show. -/
def shown (layout : Layout) : List Shown := shownAt [] layout.rootAddress 0 layout

/-! ### The text form lists the shown fields -/

mutual

/-- Reading a slice is reading the whole. -/
theorem textsAt_slice {whole : Bytes} {start length : Nat} (address : String) :
    ∀ {layout : Layout} {offset : Nat}, offset + layout.size ≤ length →
      textsAt (whole.slice start length) address offset layout =
        textsAt whole address (start + offset) layout
  | scalar kind, offset, inside => by
    have slice : (whole.slice start length).slice offset kind.width =
        whole.slice (start + offset) kind.width := Bytes.slice_slice inside
    rw [textsAt, textsAt, slice]
  | enum type, offset, inside => by
    have slice : (whole.slice start length).slice offset 4 = whole.slice (start + offset) 4 :=
      Bytes.slice_slice inside
    rw [textsAt, textsAt, slice]
  | padding _, _, _ => rfl
  | array name capacity element, offset, inside => by
    rw [textsAt, textsAt, Bytes.slice_slice inside]
  | record _ _, _, inside => fieldTexts_slice address inside

/-- The texts of fields in a part of the bytes are those at the offsets there. -/
theorem fieldTexts_slice {whole : Bytes} {start length : Nat} (address : String) :
    ∀ {fields : List (String × Layout)} {offset : Nat}, offset + fieldsSize fields ≤ length →
      fieldTexts (whole.slice start length) address offset fields =
        fieldTexts whole address (start + offset) fields
  | [], _, _ => rfl
  | (_, layout) :: rest, offset, inside => by
    have room : offset + (layout.size + fieldsSize rest) ≤ length := inside
    rw [fieldTexts, fieldTexts, textsAt_slice _ (by omega), fieldTexts_slice address (by omega),
      Nat.add_assoc]

end

mutual

/-- What is in a slot is visible only if the slot holds an element. -/
theorem slots_subset_of_mem_shownAt {shown : Shown} : ∀ {layout : Layout} {slots : List Nat}
    {address : String} {offset : Nat}, shown ∈ shownAt slots address offset layout →
      slots ⊆ shown.slots
  | scalar _, _, _, _, mem | enum _, _, _, _, mem => by
    simp only [shownAt, List.mem_singleton] at mem
    subst mem
    exact List.Subset.refl _
  | padding _, _, _, _, mem => absurd mem List.not_mem_nil
  | array _ _ _, _, _, _, mem => by
    rcases List.mem_cons.1 mem with rfl | mem
    · exact List.Subset.refl _
    · obtain ⟨slot, -, mem⟩ := List.mem_flatMap.1 mem
      exact List.Subset.trans (List.subset_cons_self _ _) (slots_subset_of_mem_shownAt mem)
  | record _ _, _, _, _, mem => slots_subset_of_mem_shownFields mem

/-- The slots around fields are around each of them. -/
theorem slots_subset_of_mem_shownFields {shown : Shown} : ∀ {fields : List (String × Layout)}
    {slots : List Nat} {address : String} {offset : Nat},
      shown ∈ shownFields slots address offset fields → slots ⊆ shown.slots
  | [], _, _, _, mem => absurd mem List.not_mem_nil
  | (_, _) :: _, _, _, _, mem => by
    rcases List.mem_append.1 mem with mem | mem
    · exact slots_subset_of_mem_shownAt mem
    · exact slots_subset_of_mem_shownFields mem

end

section Array

variable {whole : Bytes} {capacity offset i : Nat} {name : String} {element : Layout}

/-- A slot of an array in a blob. -/
theorem slot_slice (inside : i < capacity) :
    Slots.slot element (whole.slice offset (array name capacity element).size) i =
      whole.slice (offset + element.slotOffset i) element.size := by
  have within : element.slotOffset i + element.size ≤ (array name capacity element).size :=
    Slots.slotOffset_add_le inside
  exact Bytes.slice_slice within

/-- Whether a slot of an array in a blob holds an element. -/
theorem isOccupied_slot_slice (starts : element.StartsWithIndex) (inside : i < capacity) :
    Slots.isOccupied
        (Slots.slot element (whole.slice offset (array name capacity element).size) i) =
      decide (Occupied whole (offset + element.slotOffset i)) := by
  have word : (whole.slice (offset + element.slotOffset i) element.size).slice 0 Slots.wordSize =
      whole.slice (offset + element.slotOffset i) Slots.wordSize :=
    Bytes.slice_slice (by have := starts.four_le_size; simp only [Slots.wordSize]; omega)
  rw [slot_slice inside, Slots.isOccupied, Slots.readWord, word]
  rfl

end Array

/-- Items that are left out of a list contribute nothing. -/
theorem flatMap_filter {α β : Type} (kept : α → Bool) (f : α → List β) : ∀ items : List α,
    (items.filter kept).flatMap f = items.flatMap fun a => if kept a then f a else []
  | [] => rfl
  | a :: rest => by
    rw [List.flatMap_cons, ← flatMap_filter kept f rest]
    cases here : kept a with
    | true => rw [List.filter_cons_of_pos here, List.flatMap_cons, if_pos rfl]
    | false => rw [List.filter_cons_of_neg (by simp [here]), if_neg (by simp), List.nil_append]

mutual

/-- The text form has an entry for each shown field that is visible. -/
theorem textsAt_eq {whole : Bytes} : ∀ {layout : Layout} {slots : List Nat} (address : String)
    (offset : Nat), layout.WellFormed → (∀ start ∈ slots, Occupied whole start) →
      textsAt whole address offset layout =
        ((shownAt slots address offset layout).filter (·.isVisible whole)).map (·.entry whole)
  | scalar kind, slots, address, offset, _, occupied => by
    have visible : (⟨⟨address, offset, scalar kind⟩, slots⟩ : Shown).isVisible whole = true :=
      Shown.isVisible_iff.2 occupied
    rw [shownAt, List.filter_cons_of_pos visible]
    rfl
  | enum type, slots, address, offset, _, occupied => by
    have visible : (⟨⟨address, offset, enum type⟩, slots⟩ : Shown).isVisible whole = true :=
      Shown.isVisible_iff.2 occupied
    rw [shownAt, List.filter_cons_of_pos visible]
    rfl
  | padding _, _, _, _, _, _ => rfl
  | array name capacity element, slots, address, offset, formed, occupied => by
    have visible : (⟨⟨Name.join address DataType.capacityParameter, offset,
        array name capacity element⟩, slots⟩ : Shown).isVisible whole = true :=
      Shown.isVisible_iff.2 occupied
    rw [textsAt, shownAt, List.filter_cons_of_pos visible, List.map_cons, List.filter_flatMap,
      List.map_flatMap, Slots.occupied_eq, List.map_map, ← List.flatMap_def, flatMap_filter]
    refine congrArg (_ :: ·) (List.flatMap_congr fun i mem => ?_)
    have inside := List.mem_range.1 mem
    rw [isOccupied_slot_slice formed.1 inside]
    by_cases here : Occupied whole (offset + element.slotOffset i)
    · have below := textsAt_eq (Name.join address (toString i)) (offset + element.slotOffset i)
        formed.2 (List.forall_mem_cons.2 ⟨here, occupied⟩)
      rw [if_pos (decide_eq_true here), ← below, Function.comp_apply, slot_slice inside]
      exact textsAt_slice _ (Nat.le_of_eq (Nat.zero_add _))
    · have none : (shownAt ((offset + element.slotOffset i) :: slots)
          (Name.join address (toString i)) (offset + element.slotOffset i) element).filter
            (·.isVisible whole) = [] := by
        rw [List.filter_eq_nil_iff]
        intro shown mem visible
        exact here (Shown.isVisible_iff.1 visible _
          (slots_subset_of_mem_shownAt mem List.mem_cons_self))
      rw [if_neg (by simpa using here), none, List.map_nil]
  | record _ _, _, address, offset, formed, occupied =>
    fieldTexts_eq address offset formed.1 occupied

/-- The texts of fields are the entries of those that are visible. -/
theorem fieldTexts_eq {whole : Bytes} : ∀ {fields : List (String × Layout)} {slots : List Nat}
    (address : String) (offset : Nat), FieldsWellFormed fields →
      (∀ start ∈ slots, Occupied whole start) →
      fieldTexts whole address offset fields =
        ((shownFields slots address offset fields).filter (·.isVisible whole)).map
          (·.entry whole)
  | [], _, _, _, _, _ => rfl
  | (_, _) :: _, _, address, _, formed, occupied => by
    rw [fieldTexts, shownFields, List.filter_append, List.map_append,
      textsAt_eq _ _ formed.2.1 occupied, fieldTexts_eq address _ formed.2.2 occupied]

end

/-! ### Blobs that show the same -/

mutual

/-- Two blobs of a layout show the same: their scalars and enums have the same texts, and the same
slots of their arrays hold elements that show the same. -/
def Alike : Layout → Bytes → Bytes → Prop
  | scalar kind, a, b => (kind.read a).text = (kind.read b).text
  | enum type, a, b => (type.read a).text = (type.read b).text
  | padding _, _, _ => True
  | record _ fields, a, b => FieldsAlike fields a b
  | array _ capacity element, a, b =>
    Slots.present capacity element a = Slots.present capacity element b ∧
      ∀ slot ∈ Slots.present capacity element a,
        Alike element (Slots.slot element a slot) (Slots.slot element b slot)

/-- The same for consecutive fields. -/
def FieldsAlike : List (String × Layout) → Bytes → Bytes → Prop
  | [], _, _ => True
  | (_, layout) :: rest, a, b =>
    Alike layout (a.take layout.size) (b.take layout.size) ∧
      FieldsAlike rest (a.drop layout.size) (b.drop layout.size)

end

/-- An element has its index among the fields that it can show. -/
theorem index_mem_shownAt {element : Layout} (starts : element.StartsWithIndex) (slots : List Nat)
    (address : String) (offset : Nat) :
    ⟨⟨Name.join address DataType.indexField, offset, scalar .int32⟩, slots⟩ ∈
      shownAt slots address offset element := by
  obtain ⟨name, rest, rfl⟩ := starts
  exact List.mem_append_left _ (List.mem_singleton.2 rfl)

end Layout

/-- A field is visible in both blobs or in neither, and has the same text where it is. -/
def Shown.SameIn (a b : Bytes) (shown : Shown) : Prop :=
  shown.isVisible a = shown.isVisible b ∧
    (shown.isVisible a = true → shown.text a = shown.text b)

namespace Shown

variable {a b : Bytes} {shown : Shown}

/-- A field in slots that hold elements is compared by its text. -/
theorem sameIn_iff_text (here : ∀ start ∈ shown.slots, Occupied a start)
    (there : ∀ start ∈ shown.slots, Occupied b start) :
    shown.SameIn a b ↔ shown.text a = shown.text b := by
  rw [SameIn, isVisible_iff.2 here, isVisible_iff.2 there]
  simp only [true_and, forall_const]

/-- A field in an empty slot is not compared. -/
theorem sameIn_of_empty {start : Nat} (inSlot : start ∈ shown.slots) (here : ¬Occupied a start)
    (there : ¬Occupied b start) : shown.SameIn a b := by
  have hidden : shown.isVisible a = false :=
    Bool.eq_false_iff.2 fun visible => here (isVisible_iff.1 visible start inSlot)
  have hidden' : shown.isVisible b = false :=
    Bool.eq_false_iff.2 fun visible => there (isVisible_iff.1 visible start inSlot)
  refine ⟨hidden.trans hidden'.symm, fun visible => ?_⟩
  rw [hidden] at visible
  cases visible

end Shown

namespace Layout

open Shown (Occupied)

section Slots

variable {a b : Bytes} {name : String} {capacity offset : Nat} {element : Layout}

/-- The same slots of an array hold elements in two blobs. -/
theorem present_eq_iff (starts : element.StartsWithIndex) :
    Slots.present capacity element (a.slice offset (array name capacity element).size) =
        Slots.present capacity element (b.slice offset (array name capacity element).size) ↔
      ∀ i < capacity, (Occupied a (offset + element.slotOffset i) ↔
        Occupied b (offset + element.slotOffset i)) := by
  constructor
  · intro same i inside
    have member : i ∈ Slots.present capacity element
        (a.slice offset (array name capacity element).size) ↔ _ := Slots.mem_present_iff
    rw [same, Slots.mem_present_iff, isOccupied_slot_slice starts inside,
      isOccupied_slot_slice starts inside, decide_eq_true_eq, decide_eq_true_eq] at member
    simpa [inside] using member.symm
  · intro same
    rw [Slots.present_eq, Slots.present_eq]
    refine List.filter_congr fun i mem => ?_
    have inside := List.mem_range.1 mem
    rw [isOccupied_slot_slice starts inside, isOccupied_slot_slice starts inside]
    exact decide_eq_decide.2 (same i inside)

/-- Arrays are alike exactly if all that they can show is the same, if this is so of elements. -/
theorem alike_array_iff {slots : List Nat} {address : String} (starts : element.StartsWithIndex)
    (here : ∀ start ∈ slots, Occupied a start) (there : ∀ start ∈ slots, Occupied b start)
    (each : ∀ i, Occupied a (offset + element.slotOffset i) →
      Occupied b (offset + element.slotOffset i) →
        (Alike element (a.slice (offset + element.slotOffset i) element.size)
            (b.slice (offset + element.slotOffset i) element.size) ↔
          ∀ shown ∈ shownAt ((offset + element.slotOffset i) :: slots)
            (Name.join address (toString i)) (offset + element.slotOffset i) element,
              shown.SameIn a b)) :
    Alike (array name capacity element) (a.slice offset (array name capacity element).size)
        (b.slice offset (array name capacity element).size) ↔
      ∀ shown ∈ shownAt slots address offset (array name capacity element),
        shown.SameIn a b := by
  rw [Alike, present_eq_iff starts]
  constructor
  · rintro ⟨present, elements⟩ shown mem
    rcases List.mem_cons.1 mem with rfl | mem
    · exact (Shown.sameIn_iff_text here there).2 rfl
    · obtain ⟨i, range, mem⟩ := List.mem_flatMap.1 mem
      have inside := List.mem_range.1 range
      by_cases occupied : Occupied a (offset + element.slotOffset i)
      · have alike := elements i (Slots.mem_present_iff.2 ⟨inside, by
          rw [isOccupied_slot_slice starts inside, decide_eq_true occupied]⟩)
        rw [slot_slice inside, slot_slice inside] at alike
        exact (each i occupied ((present i inside).1 occupied)).1 alike shown mem
      · exact Shown.sameIn_of_empty (slots_subset_of_mem_shownAt mem List.mem_cons_self) occupied
          (mt (present i inside).2 occupied)
  · intro same
    have below : ∀ i < capacity, ∀ shown ∈ shownAt ((offset + element.slotOffset i) :: slots)
        (Name.join address (toString i)) (offset + element.slotOffset i) element,
          shown.SameIn a b := by
      intro i inside shown mem
      exact same shown (List.mem_cons_of_mem _
        (List.mem_flatMap.2 ⟨i, List.mem_range.2 inside, mem⟩))
    -- The index of an element is shown, so a slot holds an element in both blobs or in neither.
    have present : ∀ i < capacity, (Occupied a (offset + element.slotOffset i) ↔
        Occupied b (offset + element.slotOffset i)) := by
      intro i inside
      have index := (below i inside _ (index_mem_shownAt starts _ _ _)).1
      rw [Bool.eq_iff_iff, Shown.isVisible_iff, Shown.isVisible_iff, List.forall_mem_cons,
        List.forall_mem_cons] at index
      simpa [and_iff_left here, and_iff_left there] using index
    refine ⟨present, fun i mem => ?_⟩
    obtain ⟨inside, occupied⟩ := Slots.mem_present_iff.1 mem
    rw [isOccupied_slot_slice starts inside, decide_eq_true_eq] at occupied
    rw [slot_slice inside, slot_slice inside]
    exact (each i occupied ((present i inside).1 occupied)).2 (below i inside)

end Slots

mutual

/-- Blobs are alike exactly if all the fields that they can show are the same in them. -/
theorem alike_iff {a b : Bytes} : ∀ {layout : Layout} {slots : List Nat} (address : String)
    (offset : Nat), layout.WellFormed → (∀ start ∈ slots, Occupied a start) →
      (∀ start ∈ slots, Occupied b start) →
      (Alike layout (a.slice offset layout.size) (b.slice offset layout.size) ↔
        ∀ shown ∈ shownAt slots address offset layout, shown.SameIn a b)
  | scalar kind, slots, address, offset, _, here, there => by
    rw [shownAt, List.forall_mem_singleton, Shown.sameIn_iff_text here there]
    rfl
  | enum type, slots, address, offset, _, here, there => by
    rw [shownAt, List.forall_mem_singleton, Shown.sameIn_iff_text here there]
    rfl
  | padding _, _, _, _, _, _, _ => by simp [Alike, shownAt]
  | array _ _ _, _, _, _, formed, here, there =>
    alike_array_iff formed.1 here there fun _ occupied occupied' =>
      alike_iff _ _ formed.2 (List.forall_mem_cons.2 ⟨occupied, here⟩)
        (List.forall_mem_cons.2 ⟨occupied', there⟩)
  | record _ _, _, address, offset, formed, here, there =>
    fieldsAlike_iff address offset formed.1 here there

/-- Fields are alike exactly when each that is shown is the same in both. -/
theorem fieldsAlike_iff {a b : Bytes} : ∀ {fields : List (String × Layout)} {slots : List Nat}
    (address : String) (offset : Nat), FieldsWellFormed fields →
      (∀ start ∈ slots, Occupied a start) → (∀ start ∈ slots, Occupied b start) →
      (FieldsAlike fields (a.slice offset (fieldsSize fields))
          (b.slice offset (fieldsSize fields)) ↔
        ∀ shown ∈ shownFields slots address offset fields, shown.SameIn a b)
  | [], _, _, _, _, _, _ => by simp [FieldsAlike, shownFields]
  | (_, layout) :: rest, _, address, offset, formed, here, there => by
    rw [FieldsAlike, fieldsSize_cons, Bytes.take_slice, Bytes.drop_slice, Bytes.take_slice,
      Bytes.drop_slice, alike_iff _ _ formed.2.1 here there,
      fieldsAlike_iff address _ formed.2.2 here there, shownFields, List.forall_mem_append]

end

/-- Whole blobs are alike exactly if all the fields that they can show are the same in them. -/
theorem alike_iff_forall_shown {layout : Layout} {a b : Bytes} (formed : layout.WellFormed)
    (whole : a.length = layout.size) (whole' : b.length = layout.size) :
    Alike layout a b ↔ ∀ shown ∈ layout.shown, shown.SameIn a b := by
  have all := @alike_iff a b layout [] layout.rootAddress 0 formed
    (fun _ mem => absurd mem List.not_mem_nil) fun _ mem => absurd mem List.not_mem_nil
  rwa [Bytes.slice_all whole, Bytes.slice_all whole'] at all

end Layout

namespace Shown

/-- One of two fields is an array, or the first ends before the second starts. -/
def Before (first second : Shown) : Prop :=
  first.content.isArray = true ∨ second.content.isArray = true ∨
    first.offset + first.content.size ≤ second.offset

/-- The field is the index of the slot that starts at an offset. -/
structure IsIndex (shown : Shown) (start : Nat) : Prop where
  offset : shown.offset = start
  content : shown.content = .scalar .int32
  name : ∃ address, shown.name = Name.join address DataType.indexField
  slot : start ∈ shown.slots

end Shown

namespace Layout

/-! ### What is shown of which bytes -/

mutual

/-- Shown fields are scalars and enums, and arrays under the name of their capacity. -/
theorem content_of_mem_shownAt {shown : Shown} : ∀ {layout : Layout} {slots : List Nat}
    {address : String} {offset : Nat}, shown ∈ shownAt slots address offset layout →
      (∃ kind, shown.content = scalar kind) ∨ (∃ type, shown.content = enum type) ∨
        shown.content.isArray = true ∧
          ∃ parent, shown.name = Name.join parent DataType.capacityParameter
  | scalar kind, _, _, _, mem => by
    rw [List.mem_singleton.1 mem]
    exact Or.inl ⟨kind, rfl⟩
  | enum type, _, _, _, mem => by
    rw [List.mem_singleton.1 mem]
    exact Or.inr (Or.inl ⟨type, rfl⟩)
  | padding _, _, _, _, mem => absurd mem List.not_mem_nil
  | array _ _ _, _, address, _, mem => by
    rcases List.mem_cons.1 mem with rfl | mem
    · exact Or.inr (Or.inr ⟨rfl, address, rfl⟩)
    · obtain ⟨_, -, mem⟩ := List.mem_flatMap.1 mem
      exact content_of_mem_shownAt mem
  | record _ _, _, _, _, mem => content_of_mem_shownFields mem

/-- What fields show are numbers, labels and the capacities of arrays. -/
theorem content_of_mem_shownFields {shown : Shown} : ∀ {fields : List (String × Layout)}
    {slots : List Nat} {address : String} {offset : Nat},
      shown ∈ shownFields slots address offset fields →
        (∃ kind, shown.content = scalar kind) ∨ (∃ type, shown.content = enum type) ∨
          shown.content.isArray = true ∧
            ∃ parent, shown.name = Name.join parent DataType.capacityParameter
  | [], _, _, _, mem => absurd mem List.not_mem_nil
  | (_, _) :: _, _, _, _, mem => by
    rcases List.mem_append.1 mem with mem | mem
    · exact content_of_mem_shownAt mem
    · exact content_of_mem_shownFields mem

end

mutual

/-- What is shown of a layout lies in its bytes. -/
theorem bounds_of_mem_shownAt {shown : Shown} : ∀ {layout : Layout} {slots : List Nat}
    {address : String} {offset : Nat}, shown ∈ shownAt slots address offset layout →
      offset ≤ shown.offset ∧ shown.offset + shown.content.size ≤ offset + layout.size
  | scalar _, _, _, _, mem | enum _, _, _, _, mem => by
    rw [List.mem_singleton.1 mem]
    exact ⟨Nat.le_refl _, Nat.le_refl _⟩
  | padding _, _, _, _, mem => absurd mem List.not_mem_nil
  | array name capacity element, _, _, _, mem => by
    rcases List.mem_cons.1 mem with rfl | mem
    · exact ⟨Nat.le_refl _, Nat.le_refl _⟩
    · obtain ⟨i, range, mem⟩ := List.mem_flatMap.1 mem
      have inside := bounds_of_mem_shownAt mem
      have within : element.slotOffset i + element.size ≤ (array name capacity element).size :=
        Slots.slotOffset_add_le (List.mem_range.1 range)
      omega
  | record _ _, _, _, _, mem => bounds_of_mem_shownFields mem

/-- What fields show is inside their bytes. -/
theorem bounds_of_mem_shownFields {shown : Shown} : ∀ {fields : List (String × Layout)}
    {slots : List Nat} {address : String} {offset : Nat},
      shown ∈ shownFields slots address offset fields →
        offset ≤ shown.offset ∧ shown.offset + shown.content.size ≤ offset + fieldsSize fields
  | [], _, _, _, mem => absurd mem List.not_mem_nil
  | (_, layout) :: rest, _, _, offset, mem => by
    show offset ≤ shown.offset ∧
      shown.offset + shown.content.size ≤ offset + (layout.size + fieldsSize rest)
    rcases List.mem_append.1 mem with mem | mem
    · have inside := bounds_of_mem_shownAt mem
      omega
    · have inside := bounds_of_mem_shownFields mem
      omega

end

mutual

/-- The scalars and enums that are shown do not overlap. -/
theorem pairwise_shownAt : ∀ (layout : Layout) (slots : List Nat) (address : String) (offset : Nat),
    (shownAt slots address offset layout).Pairwise Shown.Before
  | scalar _, _, _, _ | enum _, _, _, _ => List.pairwise_singleton _ _
  | padding _, _, _, _ => .nil
  | array _ capacity element, _, _, offset => by
    refine List.pairwise_cons.2 ⟨fun _ _ => Or.inl rfl, List.pairwise_flatMap.2
      ⟨fun i _ => pairwise_shownAt element _ _ _, ?_⟩⟩
    refine List.pairwise_lt_range.imp ?_
    intro i j before a ha b hb
    have first := (bounds_of_mem_shownAt ha).2
    have second := (bounds_of_mem_shownAt hb).1
    have next : element.slotOffset i + element.size ≤ element.slotOffset j :=
      Slots.slotOffset_add_le before
    exact Or.inr (Or.inr (by omega))
  | record _ fields, _, _, _ => pairwise_shownFields fields _ _ _

/-- Fields show their parts in the order of their offsets. -/
theorem pairwise_shownFields : ∀ (fields : List (String × Layout)) (slots : List Nat)
    (address : String) (offset : Nat),
      (shownFields slots address offset fields).Pairwise Shown.Before
  | [], _, _, _ => .nil
  | (_, layout) :: rest, _, _, _ => by
    refine List.pairwise_append.2 ⟨pairwise_shownAt layout _ _ _, pairwise_shownFields rest _ _ _, ?_⟩
    intro a ha b hb
    have first := (bounds_of_mem_shownAt ha).2
    have second := (bounds_of_mem_shownFields hb).1
    exact Or.inr (Or.inr (by omega))

end

mutual

/-- Each slot that a shown field is in has its index among the shown fields. -/
theorem exists_index_of_mem_shownAt {shown : Shown} {start : Nat} (inSlot : start ∈ shown.slots) :
    ∀ {layout : Layout} {slots : List Nat} {address : String} {offset : Nat}, layout.WellFormed →
      shown ∈ shownAt slots address offset layout → start ∈ slots ∨
        ∃ index ∈ shownAt slots address offset layout, index.IsIndex start ∧
          index.slots ⊆ shown.slots
  | scalar _, _, _, _, _, mem | enum _, _, _, _, _, mem => by
    rw [List.mem_singleton.1 mem] at inSlot
    exact Or.inl inSlot
  | padding _, _, _, _, _, mem => absurd mem List.not_mem_nil
  | array name capacity element, slots, address, offset, formed, mem => by
    rcases List.mem_cons.1 mem with rfl | mem
    · exact Or.inl inSlot
    · obtain ⟨i, range, mem⟩ := List.mem_flatMap.1 mem
      have among : ∀ index ∈ shownAt ((offset + element.slotOffset i) :: slots)
          (Name.join address (toString i)) (offset + element.slotOffset i) element,
            index ∈ shownAt slots address offset (array name capacity element) :=
        fun index held => List.mem_cons_of_mem _ (List.mem_flatMap.2 ⟨i, range, held⟩)
      rcases exists_index_of_mem_shownAt inSlot formed.2 mem with here | ⟨index, held, is⟩
      · rcases List.mem_cons.1 here with rfl | outside
        · exact Or.inr ⟨_, among _ (index_mem_shownAt formed.1 _ _ _),
            ⟨rfl, rfl, ⟨_, rfl⟩, List.mem_cons_self⟩, slots_subset_of_mem_shownAt mem⟩
        · exact Or.inl outside
      · exact Or.inr ⟨index, among index held, is⟩
  | record _ _, _, _, _, formed, mem => exists_index_of_mem_shownFields inSlot formed.1 mem

/-- A field inside a slot is shown together with the index of that slot. -/
theorem exists_index_of_mem_shownFields {shown : Shown} {start : Nat}
    (inSlot : start ∈ shown.slots) : ∀ {fields : List (String × Layout)} {slots : List Nat}
      {address : String} {offset : Nat}, FieldsWellFormed fields →
        shown ∈ shownFields slots address offset fields → start ∈ slots ∨
          ∃ index ∈ shownFields slots address offset fields, index.IsIndex start ∧
            index.slots ⊆ shown.slots
  | [], _, _, _, _, mem => absurd mem List.not_mem_nil
  | (_, _) :: _, _, _, _, formed, mem => by
    rcases List.mem_append.1 mem with mem | mem
    · rcases exists_index_of_mem_shownAt inSlot formed.2.1 mem with here | ⟨index, held, is⟩
      · exact Or.inl here
      · exact Or.inr ⟨index, List.mem_append_left _ held, is⟩
    · rcases exists_index_of_mem_shownFields inSlot formed.2.2 mem with here | ⟨index, held, is⟩
      · exact Or.inl here
      · exact Or.inr ⟨index, List.mem_append_right _ held, is⟩

end

end Layout

end DeviceBlob
