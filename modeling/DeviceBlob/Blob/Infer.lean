import DeviceBlob.Blob.Write
import DeviceBlob.Layout.Compile

/-!
# Finding out capacities

A blob that is opened without parameters says itself how large its arrays are: their headers hold
the capacities, which for the arrays in elements are read in the first slot.  A `Scanner` reads
them; which steps it takes is left open, so that parts without parameters can be laid out with a
cache or without one.  A value tree says how large its arrays have to be at least: the greatest slot
that it names must exist.  `checkShape` compares a layout with the headers of a blob, in every slot.
-/

namespace DeviceBlob

/-! ### From the headers of a blob -/

namespace Compiler

/-- The capacity in the header at the given offset, on behalf of the array with the given name. -/
def headerCapacity (compiler : Compiler) (typeName : String) (bytes : Bytes) (offset : Nat) :
    Except Error Nat :=
  if bytes.length < offset + Layout.headerSize then
    .error (.layoutMismatch typeName (.headerCut offset))
  else
    let stored := Slots.readWord bytes offset
    if 1 ≤ stored ∧ stored ≤ compiler.maxParameter then .ok stored.toNat
    else .error (.invalidCapacity offset stored compiler.maxParameter)

end Compiler

/-- How the headers of a blob are read, by steps of some kind. -/
structure Scanner (m : Type → Type) where
  /-- Whether vectors are padded. -/
  packing : Packing
  /-- The layout of a part that depends on no parameter. -/
  plainLayout : DataType → m Layout
  /-- The capacity in the header at an offset, on behalf of the array with a name. -/
  capacity : String → Nat → m Nat

namespace Scanner

/-- The size of the padding behind the field at the given position. -/
def paddingSize (runs : List VectorRun) (position : Nat) : Nat :=
  Layout.fieldsSize (Layout.paddingBehind runs position)

variable {m : Type → Type} [Monad m]

mutual

/-- The size of the part of a blob that starts at the given offset, and the parameters below the
given name that its headers hold. -/
def scan (scanner : Scanner m) (offset : Nat) (parent : String) :
    DataType → m (Nat × List (String × Int64))
  | .scalar kind => do return ((← scanner.plainLayout (.scalar kind)).size, [])
  | .enum type => do return ((← scanner.plainLayout (.enum type)).size, [])
  | .record name fields =>
    if DataType.fieldsPlain fields then do
      return ((← scanner.plainLayout (.record name fields)).size, [])
    else scanFields scanner offset parent (VectorRun.padded scanner.packing fields) 0 fields
  | .array name element => do
    let capacity ← scanner.capacity name offset
    let (size, params) ←
      scan scanner (offset + Layout.headerSize) (Name.join parent DataType.itemPrefix) element
    let here := (Name.join parent DataType.capacityParameter, Int64.ofNat capacity)
    return (Layout.headerSize + capacity * size, here :: params)

/-- The same for consecutive fields, of which the first has the given position in its record. -/
def scanFields (scanner : Scanner m) (offset : Nat) (parent : String) (runs : List VectorRun)
    (position : Nat) : List (String × DataType) → m (Nat × List (String × Int64))
  | [] => return (0, [])
  | (name, type) :: rest => do
    let (size, params) ← scan scanner offset (Name.join parent name) type
    let size := size + paddingSize runs position
    let (others, otherParams) ←
      scanFields scanner (offset + size) parent runs (position + 1) rest
    return (size + others, params ++ otherParams)

end

/-- The parameters that the headers of a blob hold. -/
def params (scanner : Scanner m) (type : DataType) : m Params := do
  let (_, params) ← scanner.scan 0 "" type
  return .ofList params

end Scanner

namespace Compiler

/-- Reads the headers of a blob in the given bytes. -/
def scanner (compiler : Compiler) (bytes : Bytes) : Scanner (Except Error) where
  packing := compiler.packing
  plainLayout := compiler.plainLayout
  capacity := fun typeName offset => compiler.headerCapacity typeName bytes offset

/-- The parameters that the headers of a blob hold. -/
def paramsOfBytes (compiler : Compiler) (type : DataType) (bytes : Bytes) :
    Except Error Params :=
  (compiler.scanner bytes).params type

end Compiler

namespace Layout

mutual

/-- Checks that every array header in the part of a blob from the given offset on holds the
capacity of the layout. -/
def checkCapacities (bytes : Bytes) (offset : Nat) : Layout → Except Error Unit
  | record _ fields => checkFieldCapacities bytes offset fields
  | array name capacity element => do
    let stored := Slots.readWord bytes offset
    if stored ≠ capacity then
      throw (.layoutMismatch name (.capacityDiffers offset stored capacity))
    (List.range capacity).forM fun slot =>
      checkCapacities bytes (offset + slotOffset element slot) element
  | _ => .ok ()

/-- The same for consecutive fields. -/
def checkFieldCapacities (bytes : Bytes) (offset : Nat) :
    List (String × Layout) → Except Error Unit
  | [] => .ok ()
  | (_, layout) :: rest => do
    checkCapacities bytes offset layout
    checkFieldCapacities bytes (offset + layout.size) rest

end

/-- Checks that bytes can be opened with a layout: there are enough of them, and every array header
holds the capacity of the layout. -/
def checkShape (layout : Layout) (bytes : Bytes) : Except Error Unit := do
  if bytes.length < layout.size then
    throw (.layoutMismatch layout.typeName (.partTooShort layout.size 0 bytes.length))
  layout.checkCapacities bytes 0

end Layout

/-! ### From a value tree -/

namespace DataType

/-- The slots that names below an address are for, in order. -/
def slotsNamed (names : List String) (address : String) : List Nat :=
  let slots := names.filterMap fun name => (Layout.slotOf? address name).map (·.1)
  (SortedMap.ofList (slots.map (·, ()))).keys

/-- The parameters with a capacity that is at least the given one, if that is positive. -/
def raise (params : Params) (name : String) (least : Int64) : Params :=
  if 0 < least ∧ (params.get? name).getD 0 < least then params.insert name least else params

mutual

/-- Raises the capacities of the arrays of a type that has the given address in the tree and the
given name among the parameters. -/
def raiseCapacities (names : List String) (address parent : String) : DataType → Params → Params
  | record _ fields, params => raiseFieldCapacities names address parent fields params
  | array _ element, params =>
    let slots := slotsNamed names address
    let least := Int64.ofNat ((slots.getLast?.map (· + 1)).getD 0)
    slots.foldl
      (fun params slot =>
        raiseCapacities names (Name.join address (toString slot)) (Name.join parent itemPrefix)
          element params)
      (raise params (Name.join parent capacityParameter) least)
  | _, params => params

/-- The same for the fields of a record. -/
def raiseFieldCapacities (names : List String) (address parent : String) :
    List (String × DataType) → Params → Params
  | [], params => params
  | (name, type) :: rest, params =>
    raiseFieldCapacities names address parent rest
      (raiseCapacities names (Name.join address name) (Name.join parent name) type params)

end

/-- The parameters with capacities for those arrays of a type that have none, as large as the
entries of a flat tree need. -/
def withInferred (type : DataType) (flat : SortedMap String Value) (params : Params) : Params :=
  (type.raiseCapacities flat.keys "" "" ∅).union params

end DataType

end DeviceBlob
