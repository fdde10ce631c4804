import DeviceBlob.Registry
import DeviceBlob.Schema.Document
import DeviceBlob.Text.Blank
import DeviceBlob.VectorRun

/-!
# From declarations to types

The declarations of a document are resolved in order, so each may only use what stands before it.
A field with components becomes that many fields of its type, named after the components.
-/

namespace DeviceBlob

namespace Schema

/-- The type with the given name among those declared so far. -/
def lookUp (registry : Registry) (name : String) : Except Error DataType :=
  match registry.find? name with
  | some type => .ok type
  | none => .error (.invalidSchema (.typeNotDeclared name))

/-- The ordinals that label keys stand for, with their labels. -/
def ordinals (enum : String) (labels : SortedMap String String) :
    Except Error (List (Int32 × String)) :=
  labels.entries.mapM fun (text, label) =>
    match Text.int32? (Text.trim text) with
    | some ordinal => .ok (ordinal, label)
    | none => .error (.invalidSchema (.ordinalNotInteger enum text))

/-- A type that cannot be the type of vector components. -/
def isEnumOrRecord : DataType → Bool
  | .enum _ => true
  | .record _ _ => true
  | _ => false

/-- The fields that a declared field stands for. -/
def expand (registry : Registry) (record : String) (field : FieldDecl) :
    Except Error (List (String × DataType)) := do
  let type ← lookUp registry field.type
  match field.components with
  | none => return [(field.name, type)]
  | some count =>
    if isEnumOrRecord type then
      throw (.invalidSchema (.vectorOfNonScalar record field.name))
    if count < 2 ∨ 4 < count then
      throw (.invalidSchema (.vectorLength record field.name count))
    return VectorRun.declare field.name type count

/-- The type that a declaration describes. -/
def declaredType (registry : Registry) : TypeDecl → Except Error DataType
  | .enum name labels => do
    return .enum (← EnumType.ofLabels name (← ordinals name labels))
  | .record name fields => do
    let expanded ← fields.mapM (expand registry name)
    DataType.ofFields name expanded.flatten
  | .array name element => do
    DataType.ofElement name (← lookUp registry element)

/-- The registry with the declared type. -/
def declare (registry : Registry) (decl : TypeDecl) : Except Error Registry := do
  registry.register (← declaredType registry decl)

/-- The types of a document. -/
def toRegistry (schema : Schema) : Except Error Registry :=
  schema.types.foldlM declare .empty

end Schema

end DeviceBlob
