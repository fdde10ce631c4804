import DeviceBlob.Layout.Basic

/-!
# Sizes and offsets as words

The sizes and the offsets of a layout are kept in words of 64 bits.  They are added and multiplied
as words, so a layout of 2^64 bytes or more starts again at zero.  Each definition here follows one
of those on numbers without a bound, step by step.
-/

namespace DeviceBlob

/-- A named part of a layout whose offset is a word. -/
structure WordField where
  /-- The name of the part. -/
  name : String
  /-- The distance of its first byte from that of the layout, as a word. -/
  offset : UInt64
  /-- What its bytes hold. -/
  content : Layout

namespace Layout

mutual

/-- The number of bytes that a layout covers, as a word. -/
def wordSize : Layout → UInt64
  | scalar kind => .ofNat kind.width
  | enum _ => .ofNat Scalar.int32.width
  | padding kind => .ofNat kind.width
  | record _ fields => fieldsWordSize fields
  | array _ capacity element => .ofNat headerSize + .ofNat capacity * wordSize element

/-- The number of bytes that consecutive fields cover, as a word. -/
def fieldsWordSize : List (String × Layout) → UInt64
  | [] => 0
  | (_, layout) :: rest => wordSize layout + fieldsWordSize rest

end

/-- The distance of a slot of an array from the first byte of the array, as a word. -/
def wordSlotOffset (element : Layout) (slot : Nat) : UInt64 :=
  .ofNat headerSize + .ofNat slot * element.wordSize

/-- Consecutive fields, the first of which has the given offset. -/
def placeWordFields (offset : UInt64) : List (String × Layout) → List WordField
  | [] => []
  | (name, layout) :: rest =>
    ⟨name, offset, layout⟩ :: placeWordFields (offset + layout.wordSize) rest

/-- The declared parts of a layout with their offsets as words. -/
def wordFields (layout : Layout) : List WordField :=
  placeWordFields 0 layout.declaredFields

mutual

/-- The places inside a layout found at an address and an offset. -/
def wordPlacesAt (address : String) (offset : UInt64) : Layout → List WordField
  | record _ fields => placeWordAccessors address offset fields
  | whole => [⟨address, offset, whole⟩]

/-- The places inside consecutive fields found at an address and an offset. -/
def placeWordAccessors (address : String) (offset : UInt64) :
    List (String × Layout) → List WordField
  | [] => []
  | (name, layout) :: rest =>
    wordPlacesAt (Name.join address name) offset layout ++
      placeWordAccessors address (offset + layout.wordSize) rest

end

/-- The places of a layout with a value of their own, with their offsets as words. -/
def wordAccessors (layout : Layout) : List WordField :=
  placeWordAccessors "" 0 layout.declaredFields

end Layout

end DeviceBlob
