import DeviceBlob.Blob.Infer
import DeviceBlob.Blob.Tree

/-!
# Blobs

A blob is a sequence of bytes with the layout that they are read by; there may be more bytes than
the layout covers, and those stay untouched.  Fields are read and set by the names of the accessors.
Nested records and arrays are opened as parts: a part is a blob of its own, and `replacePart` puts a
changed one back.
-/

namespace DeviceBlob

/-- Bytes with their layout. -/
structure Blob where
  /-- What the bytes hold. -/
  layout : Layout
  /-- The bytes, at least as many as the layout covers. -/
  bytes : Bytes

namespace Blob

/-! ### Opening and making blobs -/

/-- The bytes under a layout that they are long enough for. -/
def ofBytes (layout : Layout) (bytes : Bytes) : Except Error Blob :=
  if bytes.length < layout.size then
    .error (.layoutMismatch layout.typeName (.tooShort layout.size bytes.length))
  else .ok ⟨layout, bytes⟩

/-- The bytes as a blob of a type.  Parameters that are not given are read from the blob itself, and
in any case all array headers must hold the capacities of the layout. -/
def openBytes (compiler : Compiler) (type : DataType) (bytes : Bytes) (params? : Option Params) :
    Except Error Blob := do
  let params ← match params? with
    | some params => .ok params
    | none => compiler.paramsOfBytes type bytes
  let layout ← compiler.layout type params
  layout.checkShape bytes
  ofBytes layout bytes

/-- A blob without values. -/
def allocate (layout : Layout) : Blob := ⟨layout, layout.blank⟩

/-- The blob of a type with the values of a tree.  Capacities that are not given are as large as the
tree needs. -/
def ofTree (compiler : Compiler) (type : DataType) (tree : Value) (params : Params) :
    Except Error Blob := do
  let flat := tree.flatten
  let layout ← compiler.layout type (type.withInferred flat params)
  return ⟨layout, ← layout.write layout.blank flat⟩

/-! ### The bytes of a blob -/

/-- The bytes that the layout covers. -/
def region (blob : Blob) : Bytes := blob.bytes.take blob.layout.size

/-- The blob with other bytes in the place of those that the layout covers. -/
def withRegion (blob : Blob) (region : Bytes) : Blob :=
  { blob with bytes := region ++ blob.bytes.drop blob.layout.size }

/-- The part of the blob at a place. -/
def part (blob : Blob) (place : Field) : Blob :=
  ⟨place.content, blob.bytes.slice place.offset place.content.size⟩

/-- The blob with another part at a place. -/
def replacePart (blob : Blob) (place : Field) (part : Blob) : Blob :=
  { blob with bytes := blob.bytes.splice place.offset part.bytes }

/-! ### Single fields -/

/-- The accessor with the given name. -/
def accessor (blob : Blob) (name : String) : Except Error Field :=
  match blob.layout.accessor? name with
  | some place => .ok place
  | none => .error (.unknownField blob.layout.typeName name)

/-- The value of a field. -/
def get (blob : Blob) (name : String) : Except Error Value := do
  let place ← blob.accessor name
  match place.content.read? (blob.part place).bytes with
  | some value => return value
  | none => throw (.typeMismatch name "scalar or enum" "array")

/-- A field was read as another kind of value than it holds. -/
def wrongKind (field expected : String) (value : Value) : Error :=
  .typeMismatch field expected value.kindName

/-- The value of a field, rounded to single precision. -/
def getSingle (blob : Blob) (name : String) : Except Error Double := do
  let value ← blob.get name
  match value.double? with
  | some x => return x.toSingle
  | none => throw (wrongKind name "float" value)

/-- The value of a field as a 32-bit integer. -/
def getInt32 (blob : Blob) (name : String) : Except Error Int32 := do
  let value ← blob.get name
  match value.int? with
  | some n =>
    if Scalar.int32.holds n.toInt then return n.toInt32 else throw (wrongKind name "int32" value)
  | none => throw (wrongKind name "int32" value)

/-- The value of a field as a truth value. -/
def getBool (blob : Blob) (name : String) : Except Error Bool := do
  let value ← blob.get name
  match value.bool? with
  | some truth => return truth
  | none => throw (wrongKind name "bool" value)

/-- The label that a field holds. -/
def getLabel (blob : Blob) (name : String) : Except Error String := do
  let value ← blob.get name
  match value.label? with
  | some text => return text
  | none => throw (wrongKind name "enum" value)

/-- The bytes of a value for a field with the given content, or nothing if the field takes none. -/
def encoded (content : Layout) (name : String) (value : Value) : Except Error (Option Bytes) :=
  match content with
  | .scalar kind => return some (← kind.write name value)
  | .enum type => return some (← type.write name value)
  | .padding _ => .ok none
  | _ => .error (.typeMismatch name "array elements" value.kindName)

/-- The blob with another value in a field.  What is set to padding is lost. -/
def set (blob : Blob) (name : String) (value : Value) : Except Error Blob := do
  let place ← blob.accessor name
  match ← encoded place.content name value with
  | some bytes => return { blob with bytes := blob.bytes.splice place.offset bytes }
  | none => return blob

/-! ### Nested records and arrays -/

/-- The array with the given name. -/
def arrayPlace (blob : Blob) (name : String) : Except Error Field := do
  let place ← blob.accessor name
  if place.content.isArray then return place
  else throw (.typeMismatch name "array" place.content.storageName)

end Blob

namespace Layout

/-- The layout is that of a record. -/
def isRecord : Layout → Bool
  | record _ _ => true
  | _ => false

mutual

/-- The record with the given name inside a record that has the given offset. -/
def recordIn? (name : String) (offset : Nat) : Layout → Option Field
  | record _ fields => recordAmong? name offset fields
  | _ => none

/-- The record with the given name among consecutive fields, of which the first has the given
offset.  The first way to take the name apart that leads to a record counts. -/
def recordAmong? (name : String) (offset : Nat) : List (String × Layout) → Option Field
  | [] => none
  | (field, layout) :: rest =>
    let here :=
      if !layout.isRecord then none
      else if field = name then some ⟨name, offset, layout⟩
      else (Name.within? field name).bind fun below => recordIn? below offset layout
    here <|> recordAmong? name (offset + layout.size) rest

end

end Layout

namespace Blob

/-- The nested record with the given name. -/
def recordPlace (blob : Blob) (name : String) : Except Error Field :=
  match blob.layout.recordIn? name 0 with
  | some place => .ok { place with name := name }
  | none => .error (.unknownField blob.layout.typeName name)

/-! ### Whole blobs -/

/-- The contents in flat form. -/
def flatTree (blob : Blob) : Value := blob.layout.flatTree blob.region

/-- The contents in nested form. -/
def nestedTree (blob : Blob) : Value := blob.layout.nestedTree blob.region

/-- The blob with the values of a tree, which must give all scalars and labels. -/
def setTree (blob : Blob) (tree : Value) : Except Error Blob := do
  return blob.withRegion (← blob.layout.write blob.region tree.flatten)

/-- The fields that two blobs show differently. -/
def differences (blob other : Blob) : List Difference :=
  Difference.between (blob.layout.texts blob.region) (other.layout.texts other.region)

/-- The blobs are of one type and show the same in all fields. -/
def same (blob other : Blob) : Bool :=
  blob.layout.typeName == other.layout.typeName && (blob.differences other).isEmpty

end Blob

end DeviceBlob
