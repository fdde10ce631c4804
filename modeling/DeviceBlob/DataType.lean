import DeviceBlob.EnumType
import DeviceBlob.Fingerprint
import DeviceBlob.Name

/-!
# Data types

A data type describes the contents of a blob: a scalar, an enum, a record of named fields or an
array of records.  An array has room for as many elements as a parameter says when the blob is laid
out; `parameterNames` lists the parameters that a type leaves open.  A type without any is plain.

Records and arrays are built by `ofFields` and `ofElement`, which check what the rest of the
library relies on: fields have distinct names, no two arrays of a type share a parameter, and each
element of an array starts with its index.
-/

namespace DeviceBlob

/-- The contents of a blob. -/
inductive DataType where
  /-- A number. -/
  | scalar (kind : Scalar)
  /-- A label of an enum, stored as a 32-bit ordinal. -/
  | enum (type : EnumType)
  /-- Named fields, one after the other. -/
  | record (name : String) (fields : List (String × DataType))
  /-- As many elements as the parameter `capacity` says. -/
  | array (name : String) (element : DataType)

namespace DataType

/-! ### Names that the library gives a meaning -/

/-- The field with which every array element starts. -/
def indexField : String := "index"

/-- The field that links an element to the next one of a list. -/
def nextField : String := "next"

/-- The parameter with the capacity of an array. -/
def capacityParameter : String := "capacity"

/-- The prefix of the parameters of an array's elements. -/
def itemPrefix : String := "item"

/-! ### Parts of a type -/

/-- The name of the type; that of a scalar is the name of its kind. -/
def name : DataType → String
  | scalar kind => kind.name
  | enum type => type.name
  | record name _ => name
  | array name _ => name

/-- The scalar kind of a scalar. -/
def scalar? : DataType → Option Scalar
  | scalar kind => some kind
  | _ => none

/-- The fields of a record. -/
def fields? : DataType → Option (List (String × DataType))
  | record _ fields => some fields
  | _ => none

/-- The element type of an array. -/
def element? : DataType → Option DataType
  | array _ element => some element
  | _ => none

/-- The type is an array. -/
def isArray (type : DataType) : Bool := type.element?.isSome

/-- The type of the field with the given name. -/
def field? (type : DataType) (name : String) : Option DataType :=
  type.fields?.bind fun fields => fields.lookup name

mutual

/-- The type contains no array, so its layout has no parameter. -/
def isPlain : DataType → Bool
  | scalar _ => true
  | enum _ => true
  | record _ fields => fieldsPlain fields
  | array _ _ => false

/-- Every field is plain. -/
def fieldsPlain : List (String × DataType) → Bool
  | [] => true
  | (_, type) :: rest => isPlain type && fieldsPlain rest

end

/-- The type is a record whose items can be linked: it has an `int32` field `next`. -/
def isListElement (type : DataType) : Bool :=
  ((type.field? nextField).bind scalar?) == some .int32

/-! ### Parameters -/

mutual

/-- The parameters of a type found under the given name, in the order of its fields.  The capacity
of an array comes before the parameters of its elements. -/
def parametersUnder (parent : String) : DataType → List String
  | scalar _ => []
  | enum _ => []
  | record _ fields => fieldParameters parent fields
  | array _ element =>
    Name.join parent capacityParameter :: parametersUnder (Name.join parent itemPrefix) element

/-- The parameters of the fields of a record found under the given name. -/
def fieldParameters (parent : String) : List (String × DataType) → List String
  | [] => []
  | (name, type) :: rest =>
    parametersUnder (Name.join parent name) type ++ fieldParameters parent rest

end

/-- The parameters that the layout of a type depends on. -/
def parameterNames (type : DataType) : List String :=
  type.parametersUnder ""

/-! ### Signature and fingerprint -/

/-- What the fingerprint of an enum is taken of. -/
def enumSignature (type : EnumType) : String :=
  let labels := type.labels.entries.map fun (ordinal, label) => s!"{ordinal.toInt}={label},"
  "enum " ++ type.name ++ "\x7b" ++ String.join labels ++ "\x7d"

/-- What the fingerprint of a record is taken of, given the fingerprints of its fields' types. -/
def recordSignature (name : String) (fields : List (String × Fingerprint)) : String :=
  let parts := fields.map fun (field, hash) => field ++ ":" ++ hash.hex ++ ","
  "record " ++ name ++ "\x7b" ++ String.join parts ++ "\x7d"

/-- What the fingerprint of an array is taken of, given the fingerprint of its element type. -/
def arraySignature (name : String) (element : Fingerprint) : String :=
  "array " ++ name ++ "[" ++ element.hex ++ "]"

mutual

/-- The fingerprint of a type's name and structure. -/
def fingerprint : DataType → Fingerprint
  | scalar kind => .ofText ("scalar " ++ kind.name)
  | enum type => .ofText (enumSignature type)
  | record name fields => .ofText (recordSignature name (fieldFingerprints fields))
  | array name element => .ofText (arraySignature name (fingerprint element))

/-- The fields' names with the fingerprints of their types. -/
def fieldFingerprints : List (String × DataType) → List (String × Fingerprint)
  | [] => []
  | (name, type) :: rest => (name, fingerprint type) :: fieldFingerprints rest

end

/-! ### Building records and arrays -/

/-- The first name that is empty or stands already before its place. -/
def badName? (seen : List String) : List String → Option String
  | [] => none
  | name :: rest =>
    if name.isEmpty || seen.contains name then some name else badName? (name :: seen) rest

/-- The first name that stands already before its place. -/
def repeated? (seen : List String) : List String → Option String
  | [] => none
  | name :: rest => if seen.contains name then some name else repeated? (name :: seen) rest

/-- The record with the given fields. -/
def ofFields (name : String) (fields : List (String × DataType)) : Except Error DataType :=
  if name.isEmpty then .error (.invalidSchema .unnamedRecord)
  else if fields.isEmpty then .error (.invalidSchema (.recordWithoutFields name))
  else match badName? [] (fields.map (·.1)) with
    | some field => .error (.invalidSchema (.badFieldName name field))
    | none => match repeated? [] (record name fields).parameterNames with
      | some parameter => .error (.invalidSchema (.sharedParameter name parameter))
      | none => .ok (record name fields)

/-- The type is a record that starts with an `int32` field `index`. -/
def startsWithIndex (type : DataType) : Bool :=
  match type.fields? with
  | some ((name, scalar .int32) :: _) => name == indexField
  | _ => false

/-- Checks that a type can be the element of the array with the given name. -/
def checkElement (array : String) (element : DataType) : Except Error Unit :=
  if element.startsWithIndex then .ok ()
  else .error (.missingElementField array element.name indexField)

/-- The array with the given elements. -/
def ofElement (name : String) (element : DataType) : Except Error DataType := do
  checkElement name element
  return array name element

end DataType

end DeviceBlob
