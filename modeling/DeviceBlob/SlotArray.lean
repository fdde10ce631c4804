import DeviceBlob.Blob.Basic

/-!
# Arrays of slots

An array of elements in a blob, where each slot holds an element or is empty.  An element is put
into a slot of choice (`insert`) or into the first free one (`push`), and the count in the header
always follows.  A buffer from elsewhere may hold a wrong count: opening it corrects the count and
says so.

A change that is refused leaves the bytes as they are.  Only `push` claims its slot first, so it
says what the array is afterwards also when it fails.
-/

namespace DeviceBlob

/-- What was found when the count of an array was corrected. -/
structure Correction where
  /-- The count before. -/
  header : Int
  /-- The number of elements in the array. -/
  observed : Nat
  deriving DecidableEq, Repr

/-- An array of slots, with the bytes it is in. -/
structure SlotArray where
  /-- The name of the array type. -/
  typeName : String
  /-- The number of slots. -/
  capacity : Nat
  /-- What a slot holds. -/
  element : Layout
  /-- The bytes, at least as many as the array covers. -/
  bytes : Bytes
  /-- The last correction of the count, since the array was last initialised. -/
  correction : Option Correction

namespace SlotArray

/-- The layout of the array. -/
def layout (array : SlotArray) : Layout := .array array.typeName array.capacity array.element

/-! ### Looking at an array -/

/-- The number of elements as the header has it. -/
def count (array : SlotArray) : Nat := (Slots.storedCount array.bytes).toNat

/-- The number that the header has for the number of elements is zero or negative. -/
def isEmpty (array : SlotArray) : Bool := array.count == 0

/-- The numbers of the slots that hold an element, in order. -/
def present (array : SlotArray) : List Nat :=
  Slots.present array.capacity array.element array.bytes

/-- The index of a slot. -/
def index? (array : SlotArray) (slot : Nat) : Option Int :=
  if slot < array.capacity then some (Slots.indexAt array.element array.bytes slot) else none

/-- The slot holds an element. -/
def isPresent (array : SlotArray) (slot : Nat) : Bool :=
  (array.index? slot).any (Slots.emptyIndex < ·)

/-- The place of a slot in the array. -/
def place (array : SlotArray) (slot : Nat) : Field :=
  ⟨toString slot, array.element.slotOffset slot, array.element⟩

/-- A slot as a blob, whether it holds an element or not. -/
def slotBlob (array : SlotArray) (slot : Nat) : Blob :=
  ⟨array.element, Slots.slot array.element array.bytes slot⟩

/-- The element in a slot. -/
def get? (array : SlotArray) (slot : Nat) : Option Blob :=
  if array.isPresent slot then some (array.slotBlob slot) else none

/-- The elements in the order of their slots. -/
def elements (array : SlotArray) : List Blob :=
  (Slots.occupied array.capacity array.element array.bytes).map fun (_, content) =>
    ⟨array.element, content⟩

/-- The array as a blob. -/
def toBlob (array : SlotArray) : Blob := ⟨array.layout, array.bytes⟩

/-! ### Changing the count -/

/-- The array with the number of its elements in the header. -/
def recount (array : SlotArray) : SlotArray :=
  { array with bytes := Slots.recount array.capacity array.element array.bytes }

/-- The array with the number of its elements in the header, and the correction that this takes. -/
def reconcile (array : SlotArray) : Option Correction × SlotArray :=
  let header := Slots.storedCount array.bytes
  let observed := array.present.length
  if header = observed then (none, array)
  else
    let correction : Correction := ⟨header, observed⟩
    (some correction, { array.recount with correction := some correction })

/-! ### Opening and making arrays -/

/-- The bytes under an array layout that they are long enough for. -/
def ofBytes (layout : Layout) (bytes : Bytes) : Except Error SlotArray :=
  match layout with
  | .array name capacity element =>
    if bytes.length < layout.size then
      .error (.layoutMismatch name (.tooShort layout.size bytes.length))
    else .ok ⟨name, capacity, element, bytes, none⟩
  | other => .error (.layoutMismatch other.typeName .notAnArray)

/-- The bytes as an array of a type, with its count corrected. -/
def openBytes (compiler : Compiler) (type : DataType) (bytes : Bytes) (params? : Option Params) :
    Except Error SlotArray := do
  let blob ← Blob.openBytes compiler type bytes params?
  return (← ofBytes blob.layout blob.bytes).reconcile.2

/-- An array with the given number of empty slots.  The parameters are those of the element type. -/
def allocate (compiler : Compiler) (type : DataType) (capacity : Nat) (itemParams : Params) :
    Except Error SlotArray := do
  let params := itemParams.prefixed DataType.itemPrefix
  let params := params.insert DataType.capacityParameter (.ofNat capacity)
  let blob := Blob.allocate (← compiler.layout type params)
  ofBytes blob.layout blob.bytes

/-! ### Filling and emptying slots -/

/-- Checks that the array has the slot. -/
def checkSlot (array : SlotArray) (slot : Nat) : Except Error Unit :=
  if slot < array.capacity then .ok () else .error (.slotOutOfRange slot array.capacity)

/-- The array with another index in a slot and the count that follows from it. -/
def mark (array : SlotArray) (slot : Nat) (index : Int) : SlotArray :=
  { array with bytes := Slots.setIndex array.element array.bytes slot index }.recount

/-- The entries of an element for a slot.  An index may be left out, but not differ from the
slot. -/
def entriesFor (slot : Nat) (flat : SortedMap String Value) :
    Except Error (SortedMap String Value) :=
  match flat.get? DataType.indexField with
  | none => .ok (flat.insert DataType.indexField (.int (.ofNat slot)))
  | some index =>
    if index.int? = some (.ofNat slot) then .ok flat
    else .error (.typeMismatch DataType.indexField s!"slot number {slot}" index.text)

/-- The array with an element made of the given entries in a slot. -/
def writeSlot (array : SlotArray) (slot : Nat) (flat : SortedMap String Value) :
    Except Error SlotArray := do
  array.checkSlot slot
  let flat ← entriesFor slot flat
  let content ← array.element.write array.element.blank flat
  return { array with bytes := Slots.setSlot array.element array.bytes slot content }.recount

/-- The array with an element made of a tree in a slot, in the place of what was there. -/
def insert (array : SlotArray) (slot : Nat) (tree : Value) : Except Error SlotArray :=
  array.writeSlot slot tree.flatten

/-- The array with an empty slot, and whether that slot held an element before. -/
def remove (array : SlotArray) (slot : Nat) : Except Error (Bool × SlotArray) := do
  array.checkSlot slot
  if array.isPresent slot then return (true, array.mark slot Slots.emptyIndex)
  else return (false, array)

/-- The slot that is filled next: the one behind the last if the elements stand close together, and
else the first that is empty. -/
def freeSlot? (array : SlotArray) : Option Nat :=
  if array.count < array.capacity ∧ !array.isPresent array.count then some array.count
  else (List.range array.capacity).find? (!array.isPresent ·)

/-- The array with the next free slot claimed, and the number of that slot.  Only the index of the
slot is written. -/
def nextSlot (array : SlotArray) : Except Error (Nat × SlotArray) :=
  match array.freeSlot? with
  | some slot => .ok (slot, array.mark slot slot)
  | none => .error (.capacityExceeded array.typeName array.capacity)

/-- The array with an element made of a tree in the next free slot, and the number of that slot.  If
the tree is refused the slot is emptied again. -/
def push (array : SlotArray) (tree : Value) : Except Error Nat × SlotArray :=
  match array.nextSlot with
  | .error e => (.error e, array)
  | .ok (slot, claimed) =>
    match claimed.insert slot tree with
    | .ok filled => (.ok slot, filled)
    | .error e =>
      match claimed.remove slot with
      | .ok (_, released) => (.error e, released)
      | .error other => (.error other, claimed)

/-- The array with all slots empty and nothing left in them. -/
def init (array : SlotArray) : SlotArray :=
  { array with
    bytes := (array.toBlob.withRegion array.layout.blank).bytes
    correction := none }

/-- The array with all slots empty; what else is in the slots stays there. -/
def clear (array : SlotArray) : SlotArray :=
  let slots := (Slots.all array.capacity array.element array.bytes).map fun content =>
    Slots.writeWord content 0 Slots.emptyIndex
  let header := array.bytes.take Layout.headerSize
  let behind := array.bytes.drop array.layout.size
  { array with bytes := Slots.setCount (header ++ slots.flatten ++ behind) 0 }

/-! ### Walking through an array -/

/-- The first slot from a position on that holds an element, and the position behind it.  The array
may change between two steps. -/
def advance (array : SlotArray) (position : Nat) : Option Nat × Nat :=
  match (List.range' position (array.capacity - position)).find? array.isPresent with
  | some slot => (some slot, slot + 1)
  | none => (none, max position array.capacity)

end SlotArray

end DeviceBlob
