import DeviceBlob.Params
import DeviceBlob.VectorRun

/-!
# Layouts

A layout says which byte of a blob holds what.  It has the shape of the type that it belongs to,
with the capacity of every array filled in and padding put in where vectors need it; sizes and
offsets follow from that shape, so they cannot disagree with it.

The parts of a layout are listed in two ways.  `fields` are the parts one level down.  `accessors`
are the places with a value of their own: nested records are opened, so their fields get joined
names, and only arrays stay whole.  Main statements: `accessors_record` and its neighbours say how
the table follows the shape, and `content_of_mem_accessors` that no record is left in it.
-/

namespace DeviceBlob

/-- What the bytes of a blob hold. -/
inductive Layout where
  /-- A number. -/
  | scalar (kind : Scalar)
  /-- The ordinal of a label, as a 32-bit integer. -/
  | enum (type : EnumType)
  /-- Bytes without a value, as many as a scalar of the given kind has. -/
  | padding (kind : Scalar)
  /-- Fields one behind the other, of a record type with the given name. -/
  | record (typeName : String) (fields : List (String × Layout))
  /-- A header and slots for as many elements as the capacity says, of an array type with the given
  name. -/
  | array (typeName : String) (capacity : Nat) (element : Layout)
  deriving Inhabited

/-- A named part of a layout. -/
structure Field where
  /-- The name of the part. -/
  name : String
  /-- The distance of its first byte from that of the layout. -/
  offset : Nat
  /-- What its bytes hold. -/
  content : Layout
  deriving Inhabited

namespace Layout

/-! ### Sizes -/

/-- The size of an array's header: its capacity and its count, both 32-bit integers. -/
def headerSize : Nat := 8

mutual

/-- The number of bytes that a layout covers. -/
def size : Layout → Nat
  | scalar kind => kind.width
  | enum _ => Scalar.int32.width
  | padding kind => kind.width
  | record _ fields => fieldsSize fields
  | array _ capacity element => headerSize + capacity * size element

/-- The number of bytes that consecutive fields cover. -/
def fieldsSize : List (String × Layout) → Nat
  | [] => 0
  | (_, layout) :: rest => size layout + fieldsSize rest

end

/-- The distance of a slot of an array from the first byte of the array. -/
def slotOffset (element : Layout) (slot : Nat) : Nat :=
  headerSize + slot * element.size

/-- A number has the bytes of its kind. -/
@[simp] theorem size_scalar (kind : Scalar) : (scalar kind).size = kind.width := rfl

/-- A label is kept as a number of 32 bits. -/
@[simp] theorem size_enum (type : EnumType) : (enum type).size = 4 := rfl

/-- Padding has the bytes of its kind. -/
@[simp] theorem size_padding (kind : Scalar) : (padding kind).size = kind.width := rfl

/-- A record is as large as its fields together. -/
@[simp] theorem size_record (name : String) (fields : List (String × Layout)) :
    (record name fields).size = fieldsSize fields := rfl

/-- An array has a header and room for as many elements as its capacity says. -/
theorem size_array (name : String) (capacity : Nat) (element : Layout) :
    (array name capacity element).size = headerSize + capacity * element.size := rfl

/-- No fields have no bytes. -/
@[simp] theorem fieldsSize_nil : fieldsSize [] = 0 := rfl

/-- Fields are as large as the first one and the rest. -/
@[simp] theorem fieldsSize_cons (field : String × Layout) (rest : List (String × Layout)) :
    fieldsSize (field :: rest) = field.2.size + fieldsSize rest := rfl

/-! ### What a layout is -/

/-- The name of the type that the layout belongs to; for padding, of the kind that it follows. -/
def typeName : Layout → String
  | scalar kind => kind.name
  | enum type => type.name
  | padding kind => kind.name
  | record name _ => name
  | array name _ _ => name

/-- The bytes carry no value. -/
def isPadding : Layout → Bool
  | padding _ => true
  | _ => false

/-- The layout is that of an array. -/
def isArray : Layout → Bool
  | array _ _ _ => true
  | _ => false

/-- The kind of scalar that the bytes are stored as; arrays and records have none. -/
def storage? : Layout → Option Scalar
  | scalar kind => some kind
  | padding kind => some kind
  | enum _ => some .int32
  | _ => none

/-- The name of the stored kind of scalar, or the word for an array. -/
def storageName (layout : Layout) : String :=
  (layout.storage?.map Scalar.name).getD "array"

/-! ### Parts one level down -/

/-- The fields at the front of an array: its capacity and the count of its elements. -/
def headerFields : List (String × Layout) :=
  [("capacity", scalar .int32), ("count", scalar .int32)]

/-- The declared parts of a layout.  A layout without parts is the value of a blob of its own, and
the slots of an array have no names. -/
def declaredFields : Layout → List (String × Layout)
  | record _ fields => fields
  | array _ _ _ => headerFields
  | leaf => [("value", leaf)]

/-- Consecutive fields, the first of which has the given offset. -/
def placeFields (offset : Nat) : List (String × Layout) → List Field
  | [] => []
  | (name, layout) :: rest => ⟨name, offset, layout⟩ :: placeFields (offset + layout.size) rest

/-- The declared parts of a layout with their offsets. -/
def fields (layout : Layout) : List Field :=
  placeFields 0 layout.declaredFields

/-- The declared part with the given name. -/
def field? (layout : Layout) (name : String) : Option Field :=
  layout.fields.find? (·.name = name)

/-! ### Places with a value of their own -/

mutual

/-- The places inside a layout found at an address and an offset: those of its fields for a record,
and else the layout as a whole. -/
def placesAt (address : String) (offset : Nat) : Layout → List Field
  | record _ fields => placeAccessors address offset fields
  | whole => [⟨address, offset, whole⟩]

/-- The places inside consecutive fields found at an address and an offset. -/
def placeAccessors (address : String) (offset : Nat) : List (String × Layout) → List Field
  | [] => []
  | (name, layout) :: rest =>
    placesAt (Name.join address name) offset layout ++
      placeAccessors address (offset + layout.size) rest

end

/-- The places of a layout with a value of their own, in the order of their bytes. -/
def accessors (layout : Layout) : List Field :=
  placeAccessors "" 0 layout.declaredFields

/-- The place with the given name. -/
def accessor? (layout : Layout) (name : String) : Option Field :=
  layout.accessors.find? (·.name = name)

/-- The record whose fields these are, unless two of its accessors have one name. -/
def ofFields (name : String) (fields : List (String × Layout)) : Except Error Layout :=
  match DataType.repeated? [] ((placeAccessors "" 0 fields).map (·.name)) with
  | some field => .error (.invalidSchema (.flattenedTwice name field))
  | none => .ok (record name fields)

/-! ### Parameters -/

mutual

/-- The capacities of the arrays of a layout found under the given name. -/
def capacitiesUnder (parent : String) : Layout → List (String × Nat)
  | record _ fields => fieldCapacities parent fields
  | array _ capacity element =>
    (Name.join parent DataType.capacityParameter, capacity) ::
      capacitiesUnder (Name.join parent DataType.itemPrefix) element
  | _ => []

/-- The capacities of the arrays among the fields of a record found under the given name. -/
def fieldCapacities (parent : String) : List (String × Layout) → List (String × Nat)
  | [] => []
  | (name, layout) :: rest =>
    capacitiesUnder (Name.join parent name) layout ++ fieldCapacities parent rest

end

/-- The parameters that a layout was made with. -/
def params (layout : Layout) : Params :=
  Params.ofList ((layout.capacitiesUnder "").map fun (name, capacity) =>
    (name, Int64.ofNat capacity))

/-! ### How the accessor table follows the shape -/

/-- No fields have no accessors. -/
@[simp] theorem placeAccessors_nil (address : String) (offset : Nat) :
    placeAccessors address offset [] = [] := rfl

/-- The accessors of an array are the two numbers in its header. -/
theorem accessors_array (name : String) (capacity : Nat) (element : Layout) :
    (array name capacity element).accessors =
      [⟨"capacity", 0, scalar .int32⟩, ⟨"count", 4, scalar .int32⟩] := rfl

mutual

/-- No accessor holds a record: records are opened. -/
theorem content_of_mem_placesAt {address : String} {offset : Nat} : ∀ {layout : Layout}
    {place : Field}, place ∈ placesAt address offset layout →
      ∀ name inner, place.content ≠ record name inner
  | record _ _, _, h => content_of_mem_placeAccessors h
  | scalar _, _, h | enum _, _, h | padding _, _, h | array _ _ _, _, h => by
    simp only [placesAt, List.mem_singleton] at h
    simp [h]

/-- No accessor of consecutive fields holds a record. -/
theorem content_of_mem_placeAccessors {address : String} {offset : Nat} :
    ∀ {fields : List (String × Layout)} {place : Field},
      place ∈ placeAccessors address offset fields →
        ∀ name inner, place.content ≠ record name inner
  | [], _, h => by simp [placeAccessors] at h
  | (_, _) :: _, _, h => by
    rcases List.mem_append.1 h with h | h
    · exact content_of_mem_placesAt h
    · exact content_of_mem_placeAccessors h

end

/-- No accessor holds a record, whose fields have accessors of their own. -/
theorem content_of_mem_accessors {layout : Layout} {place : Field} (h : place ∈ layout.accessors) :
    ∀ name inner, place.content ≠ record name inner :=
  content_of_mem_placeAccessors h

end Layout

end DeviceBlob
