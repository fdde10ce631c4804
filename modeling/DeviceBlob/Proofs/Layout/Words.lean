import DeviceBlob.Layout.Words
import DeviceBlob.Proofs.Layout.Fields

/-!
# Words stand for sizes and offsets

Sizes and offsets are computed in words of 64 bits by the steps that are taken without a bound.
Sums and products of words are those of the numbers modulo 2^64, so each word is the number modulo
2^64 as well (`wordSize_eq`, `wordFields_eq`, `wordAccessors_eq`).  Layouts below 2^64 bytes have
no number that is too large for a word: there the words are the numbers (`toNat_wordSize`,
`numbers_wordFields`, `numbers_wordAccessors`).
-/

namespace DeviceBlob

/-- The part with its offset as a word. -/
def Field.words (place : Field) : WordField := ⟨place.name, .ofNat place.offset, place.content⟩

/-- The part with the number that its word stands for. -/
def WordField.numbers (place : WordField) : Field :=
  ⟨place.name, place.offset.toNat, place.content⟩

/-- An offset below 2^64 is kept in a word as it is. -/
theorem Field.numbers_words {place : Field} (small : place.offset < 18446744073709551616) :
    place.words.numbers = place := by
  rw [words, WordField.numbers, UInt64.toNat_ofNat_of_lt' small]

namespace Layout

/-! ### Words are numbers modulo 2^64 -/

mutual

/-- The size that is summed up in words is the size, as far as it fits a word. -/
theorem wordSize_eq : ∀ layout : Layout, layout.wordSize = .ofNat layout.size
  | scalar _ | enum _ | padding _ => rfl
  | record _ fields => fieldsWordSize_eq fields
  | array _ capacity element => by
    rw [wordSize, size, wordSize_eq element, UInt64.ofNat_add, UInt64.ofNat_mul]

/-- So is that of consecutive fields. -/
theorem fieldsWordSize_eq : ∀ fields : List (String × Layout),
    fieldsWordSize fields = .ofNat (fieldsSize fields)
  | [] => rfl
  | (_, layout) :: rest => by
    rw [fieldsWordSize, fieldsSize, wordSize_eq layout, fieldsWordSize_eq rest, UInt64.ofNat_add]

end

/-- The offset of a slot that is computed in words is the offset, as far as it fits a word. -/
theorem wordSlotOffset_eq (element : Layout) (slot : Nat) :
    element.wordSlotOffset slot = .ofNat (element.slotOffset slot) := by
  rw [wordSlotOffset, slotOffset, wordSize_eq, UInt64.ofNat_add, UInt64.ofNat_mul]

/-- Consecutive fields are placed in words as they are in numbers. -/
theorem placeWordFields_eq : ∀ (offset : Nat) (fields : List (String × Layout)),
    placeWordFields (.ofNat offset) fields = (placeFields offset fields).map Field.words
  | _, [] => rfl
  | offset, (name, layout) :: rest => by
    rw [placeWordFields, wordSize_eq, ← UInt64.ofNat_add, placeWordFields_eq, placeFields,
      List.map_cons]
    rfl

/-- The declared parts are kept in words as they are in numbers. -/
theorem wordFields_eq (layout : Layout) : layout.wordFields = layout.fields.map Field.words :=
  placeWordFields_eq 0 layout.declaredFields

mutual

/-- The accessors of a part are placed in words as they are in numbers. -/
theorem wordPlacesAt_eq (address : String) (offset : Nat) : ∀ layout : Layout,
    wordPlacesAt address (.ofNat offset) layout = (placesAt address offset layout).map Field.words
  | scalar _ | enum _ | padding _ | array _ _ _ => rfl
  | record _ fields => placeWordAccessors_eq address offset fields

/-- So are those of consecutive fields. -/
theorem placeWordAccessors_eq (address : String) (offset : Nat) :
    ∀ fields : List (String × Layout), placeWordAccessors address (.ofNat offset) fields =
      (placeAccessors address offset fields).map Field.words
  | [] => rfl
  | (name, layout) :: rest => by
    rw [placeWordAccessors, wordPlacesAt_eq, wordSize_eq, ← UInt64.ofNat_add,
      placeWordAccessors_eq, placeAccessors, List.map_append]

end

/-- The accessors are kept in words as they are in numbers. -/
theorem wordAccessors_eq (layout : Layout) :
    layout.wordAccessors = layout.accessors.map Field.words :=
  placeWordAccessors_eq "" 0 layout.declaredFields

/-! ### Below 2^64 bytes words are numbers -/

/-- A declared part ends before the bytes of its record do. -/
theorem bounds_of_mem_placeFields : ∀ {offset : Nat} {fields : List (String × Layout)}
    {field : Field}, field ∈ placeFields offset fields →
      field.offset + field.content.size ≤ offset + fieldsSize fields
  | _, [], _, mem => absurd mem List.not_mem_nil
  | offset, (name, layout) :: rest, _, mem => by
    have whole : fieldsSize ((name, layout) :: rest) = layout.size + fieldsSize rest := rfl
    rw [whole]
    rcases List.mem_cons.1 mem with rfl | mem
    · show offset + layout.size ≤ _
      omega
    · have behind := bounds_of_mem_placeFields mem
      omega

variable {layout : Layout}

/-- Below 2^64 bytes the size is kept as it is. -/
theorem toNat_wordSize (fits : layout.size < 18446744073709551616) :
    layout.wordSize.toNat = layout.size := by
  rw [wordSize_eq, UInt64.toNat_ofNat_of_lt' fits]

/-- Parts that are kept in words stand for those whose offsets are small. -/
theorem numbers_map_words {places : List Field}
    (small : ∀ place ∈ places, place.offset < 18446744073709551616) :
    (places.map Field.words).map WordField.numbers = places := by
  rw [List.map_map]
  exact (List.map_congr_left fun place mem => Field.numbers_words (small place mem)).trans
    (List.map_id _)

/-- Below 2^64 bytes the offsets of all declared parts are kept as they are. -/
theorem numbers_wordFields (fits : layout.size < 18446744073709551616) :
    layout.wordFields.map WordField.numbers = layout.fields := by
  rw [wordFields_eq]
  refine numbers_map_words fun place mem => ?_
  have inside := bounds_of_mem_placeFields mem
  have declared := layout.fieldsSize_declaredFields_le
  omega

/-- Below 2^64 bytes the offsets of all accessors are kept as they are. -/
theorem numbers_wordAccessors (fits : layout.size < 18446744073709551616) :
    layout.wordAccessors.map WordField.numbers = layout.accessors := by
  rw [wordAccessors_eq]
  refine numbers_map_words fun place mem => ?_
  have inside := (bounds_of_mem_placeAccessors mem).2
  have declared := layout.fieldsSize_declaredFields_le
  omega

/-- The slots of an array that is small enough are where its words say, up to its end. -/
theorem toNat_wordSlotOffset {name : String} {capacity slot : Nat} {element : Layout}
    (fits : (array name capacity element).size < 18446744073709551616) (inside : slot ≤ capacity) :
    (element.wordSlotOffset slot).toNat = element.slotOffset slot := by
  have below : slot * element.size ≤ capacity * element.size := Nat.mul_le_mul_right _ inside
  have small : element.slotOffset slot < 18446744073709551616 := by
    rw [size_array] at fits
    unfold slotOffset
    omega
  rw [wordSlotOffset_eq, UInt64.toNat_ofNat_of_lt' small]

end Layout

end DeviceBlob
