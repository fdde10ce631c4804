import DeviceBlob.Blob.Codec

/-!
# The slots of an array

An array starts with its capacity and the count of its elements, then come the slots.  Every slot
starts with an index: the slot holds an element exactly if that index is not negative, and the index
of an empty slot is `-1`.  The functions here work on the bytes of one array and know nothing of
what else is in an element.
-/

namespace DeviceBlob.Slots

/-- The index of a slot without an element. -/
def emptyIndex : Int := -1

/-- The number of bytes of a header field and of an index. -/
def wordSize : Nat := 4

/-- The 32-bit integer at an offset. -/
def readWord (bytes : Bytes) (offset : Nat) : Int :=
  Bytes.toInt (bytes.slice offset wordSize)

/-- The bytes with a 32-bit integer put at an offset. -/
def writeWord (bytes : Bytes) (offset : Nat) (n : Int) : Bytes :=
  bytes.splice offset (.ofInt wordSize n)

/-- The capacity in the header. -/
def storedCapacity (bytes : Bytes) : Int := readWord bytes 0

/-- The count in the header. -/
def storedCount (bytes : Bytes) : Int := readWord bytes 4

/-- The array with another count in its header. -/
def setCount (bytes : Bytes) (count : Nat) : Bytes := writeWord bytes 4 count

/-! ### One slot -/

/-- The bytes of a slot. -/
def slot (element : Layout) (bytes : Bytes) (i : Nat) : Bytes :=
  bytes.slice (element.slotOffset i) element.size

/-- The array with other bytes in a slot. -/
def setSlot (element : Layout) (bytes : Bytes) (i : Nat) (content : Bytes) : Bytes :=
  bytes.splice (element.slotOffset i) content

/-- The index at the start of a slot. -/
def indexAt (element : Layout) (bytes : Bytes) (i : Nat) : Int :=
  readWord bytes (element.slotOffset i)

/-- The array with another index at the start of a slot. -/
def setIndex (element : Layout) (bytes : Bytes) (i : Nat) (index : Int) : Bytes :=
  writeWord bytes (element.slotOffset i) index

/-- The bytes of a slot hold an element. -/
def isOccupied (content : Bytes) : Bool := emptyIndex < readWord content 0

/-! ### All slots -/

/-- Consecutive parts of one size. -/
def parts (size : Nat) : (count : Nat) → Bytes → List Bytes
  | 0, _ => []
  | count + 1, bytes => bytes.take size :: parts size count (bytes.drop size)

/-- The slots of an array. -/
def all (capacity : Nat) (element : Layout) (bytes : Bytes) : List Bytes :=
  parts element.size capacity (bytes.drop Layout.headerSize)

/-- The slots that hold an element, with their numbers. -/
def occupied (capacity : Nat) (element : Layout) (bytes : Bytes) : List (Nat × Bytes) :=
  ((all capacity element bytes).zipIdx.filter (isOccupied ·.1)).map fun (content, i) => (i, content)

/-- The numbers of the slots that hold an element. -/
def present (capacity : Nat) (element : Layout) (bytes : Bytes) : List Nat :=
  (occupied capacity element bytes).map (·.1)

/-- The array with the number of its elements in the header. -/
def recount (capacity : Nat) (element : Layout) (bytes : Bytes) : Bytes :=
  setCount bytes (present capacity element bytes).length

/-- Bytes are cut into as many parts as asked for. -/
@[simp] theorem length_parts (size count : Nat) (bytes : Bytes) :
    (parts size count bytes).length = count := by
  induction count generalizing bytes with
  | zero => rfl
  | succ count ih => simp [parts, ih]

/-- The parts are the slices of that size. -/
theorem getElem?_parts {size count : Nat} {bytes : Bytes} {i : Nat} (h : i < count) :
    (parts size count bytes)[i]? = some (bytes.slice (i * size) size) := by
  induction count generalizing bytes i with
  | zero => omega
  | succ count ih =>
    cases i with
    | zero => simp [parts, Bytes.slice]
    | succ i =>
      have next : size + i * size = (i + 1) * size := by rw [Nat.succ_mul, Nat.add_comm]
      simp [parts, ih (Nat.lt_of_succ_lt_succ h), Bytes.slice, next]

/-- The slots of an array are its slots one by one. -/
theorem getElem?_all {capacity : Nat} {element : Layout} {bytes : Bytes} {i : Nat}
    (h : i < capacity) : (all capacity element bytes)[i]? = some (slot element bytes i) := by
  simp [all, getElem?_parts h, slot, Layout.slotOffset, Bytes.slice]

end DeviceBlob.Slots

namespace DeviceBlob.Layout

/-! ### Fresh blobs -/

mutual

/-- The bytes of a blob without values: zeros, but every array has its capacity in its header and
every slot is empty. -/
def blank : Layout → Bytes
  | scalar kind => .zeros kind.width
  | enum _ => .zeros 4
  | padding kind => .zeros kind.width
  | record _ fields => blankFields fields
  | array _ capacity element =>
    let slot := Slots.writeWord (blank element) 0 Slots.emptyIndex
    Bytes.ofInt 4 capacity ++ Bytes.zeros 4 ++ (List.replicate capacity slot).flatten

/-- The bytes of consecutive fields without values. -/
def blankFields : List (String × Layout) → Bytes
  | [] => []
  | (_, layout) :: rest => blank layout ++ blankFields rest

end

end DeviceBlob.Layout
