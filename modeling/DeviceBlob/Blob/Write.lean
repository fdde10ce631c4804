import DeviceBlob.Blob.Difference
import DeviceBlob.Blob.Slots
import DeviceBlob.Text.Affix
import DeviceBlob.Text.Pieces

/-!
# Writing value trees

A flat tree is written in two passes.  The first pass writes all scalars and labels, each of which
must be given.  The second pass goes through the arrays in order: an array takes the entries whose
names continue its own with a slot number, and each of its slots is written from the entries for
that slot in the same way.  An entry that nobody takes is an error.  An element whose index is not
given gets the number of its slot.

Nothing is changed in place, so a tree that is refused leaves no trace.
-/

namespace DeviceBlob

/-- The entries of a flat tree. -/
abbrev Entries := List (String × Value)

namespace Layout

/-! ### First pass: scalars and labels -/

/-- The value that is given for a field of the type with the given name. -/
def given (owner : String) (flat : SortedMap String Value) (field : String) : Except Error Value :=
  match flat.get? field with
  | some value => .ok value
  | none => .error (.uninitializedField owner field)

mutual

/-- The bytes of a layout at the given address, with the scalars and labels in it replaced. -/
def writeLeaves (owner : String) (flat : SortedMap String Value) (address : String) :
    Layout → Bytes → Except Error Bytes
  | record _ fields, bytes => writeLeafFields owner flat address fields bytes
  | scalar kind, _ => do kind.write address (← given owner flat address)
  | enum type, _ => do type.write address (← given owner flat address)
  | padding _, bytes => .ok bytes
  | array _ _ _, bytes => .ok bytes

/-- The bytes of consecutive fields below the given address, with the scalars and labels in them
replaced. -/
def writeLeafFields (owner : String) (flat : SortedMap String Value) (address : String) :
    List (String × Layout) → Bytes → Except Error Bytes
  | [], bytes => .ok bytes
  | (name, layout) :: rest, bytes => do
    let here ← writeLeaves owner flat (Name.join address name) layout (bytes.take layout.size)
    let others ← writeLeafFields owner flat address rest (bytes.drop layout.size)
    return here ++ others

end

/-- The names that the first pass takes: those of all places that are not arrays. -/
def leafNames (layout : Layout) : List String :=
  ((layout.placesAt layout.rootAddress 0).filter (!·.content.isArray)).map (·.name)

/-- The entries that the first pass leaves to the arrays. -/
def remaining (layout : Layout) (flat : SortedMap String Value) : Entries :=
  flat.entries.filter fun (name, _) => !layout.leafNames.contains name

/-! ### Second pass: arrays -/

/-- A slot number: digits that stand for a number of at most 64 bits. -/
def slotNumber? (digits : List Char) : Option Nat :=
  (Text.natural? digits).filter (· < 18446744073709551616)

/-- The slot and the field that an entry below the array with the given address is for. -/
def slotOf? (address name : String) : Option (Nat × String) := do
  let inside ← if address.isEmpty then some name else Name.within? address name
  let (digits, field) ← Text.cutFirst Name.separator inside.toList
  return (← slotNumber? digits, String.ofList field)

/-- Slots with the entries for them. -/
abbrev SlotEntries := SortedMap Nat (SortedMap String Value)

/-- One more entry for a slot. -/
def addToSlot (slots : SlotEntries) (slot : Nat) (field : String) (value : Value) : SlotEntries :=
  slots.insert slot (((slots.get? slot).getD ∅).insert field value)

/-- The entries that the array with the given address takes, by slot.  Of two entries for one field
of a slot the later counts. -/
def takenSlots (address : String) (entries : Entries) : SlotEntries :=
  entries.foldl
    (fun slots (name, value) =>
      match slotOf? address name with
      | some (slot, field) => addToSlot slots slot field value
      | none => slots)
    ∅

/-- The entries that the array with the given address leaves. -/
def untaken (address : String) (entries : Entries) : Entries :=
  entries.filter fun (name, _) => (slotOf? address name).isNone

/-- The entries for a slot, with its number as the index if none is given. -/
def withIndex (slot : Nat) (flat : SortedMap String Value) : SortedMap String Value :=
  if flat.contains DataType.indexField then flat
  else flat.insert DataType.indexField (.int (.ofNat slot))

/-- Refuses entries that nobody took, by naming the first of them. -/
def checkAllTaken (owner : String) : Entries → Except Error Unit
  | [] => .ok ()
  | (name, _) :: _ => .error (.unknownField owner name)

mutual

/-- The bytes of a layout at the given address, with the arrays in it written from the entries that
they take, and the entries that are left. -/
def writeArrays (address : String) : Layout → Bytes → Entries → Except Error (Bytes × Entries)
  | record _ fields, bytes, entries => writeArrayFields address fields bytes entries
  | array _ capacity element, bytes, entries => do
    let written ← (takenSlots address entries).entries.foldlM
      (fun bytes (slot, flat) => do
        if capacity ≤ slot then throw (.slotOutOfRange slot capacity)
        let flat := withIndex slot flat
        let content := Slots.slot element bytes slot
        let content ← writeLeaves element.typeName flat element.rootAddress element content
        let (content, rest) ←
          writeArrays element.rootAddress element content (element.remaining flat)
        checkAllTaken element.typeName rest
        return Slots.setSlot element bytes slot content)
      bytes
    return (Slots.recount capacity element written, untaken address entries)
  | _, bytes, entries => .ok (bytes, entries)

/-- The same for consecutive fields below the given address. -/
def writeArrayFields (address : String) :
    List (String × Layout) → Bytes → Entries → Except Error (Bytes × Entries)
  | [], bytes, entries => .ok (bytes, entries)
  | (name, layout) :: rest, bytes, entries => do
    let (here, entries) ←
      writeArrays (Name.join address name) layout (bytes.take layout.size) entries
    let (others, entries) ← writeArrayFields address rest (bytes.drop layout.size) entries
    return (here ++ others, entries)

end

/-- The bytes of a blob with the fields of a flat tree written into them. -/
def write (layout : Layout) (bytes : Bytes) (flat : SortedMap String Value) :
    Except Error Bytes := do
  let bytes ← layout.writeLeaves layout.typeName flat layout.rootAddress bytes
  let (bytes, rest) ← layout.writeArrays layout.rootAddress bytes (layout.remaining flat)
  checkAllTaken layout.typeName rest
  return bytes

end Layout

end DeviceBlob
