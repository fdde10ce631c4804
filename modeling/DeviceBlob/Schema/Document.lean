import DeviceBlob.Error
import DeviceBlob.Json.Printer
import DeviceBlob.Json.Reader
import DeviceBlob.SortedMap

/-!
# Schema documents

A schema document declares types in JSON, each with its `kind`, its name and what belongs to that
kind.  It only names things: whether the names make sense together is decided when the document is
turned into a registry.

The reader is more liberal than the writer.  It passes over members that it does not know, and it
takes an array in place of an object when the values stand in the order of the members.  Both work
on JSON; how JSON is written as text and read from it is given to `toTextBy` and `ofTextBy`.
-/

namespace DeviceBlob

/-- A declared field of a record. -/
structure FieldDecl where
  /-- The name of the field, or of the vector it stands for. -/
  name : String
  /-- The name of the field's type. -/
  type : String
  /-- The number of components, if the field stands for a vector. -/
  components : Option Nat
  deriving DecidableEq, Repr

/-- A declared type. -/
inductive TypeDecl where
  /-- An enum with labels by the text of their ordinals. -/
  | enum (name : String) (labels : SortedMap String String)
  | record (name : String) (fields : List FieldDecl)
  | array (name element : String)

/-- A schema document. -/
structure Schema where
  /-- The declared types in the order of the document. -/
  types : List TypeDecl

/-! ### Writing -/

namespace FieldDecl

/-- The declaration as JSON; without components there is no member for them. -/
def toJson (field : FieldDecl) : Json :=
  let components := match field.components with
    | some count => [("components", Json.integer count)]
    | none => []
  .object ([("name", .string field.name), ("type", .string field.type)] ++ components)

end FieldDecl

namespace TypeDecl

/-- The declaration as JSON. -/
def toJson : TypeDecl → Json
  | enum name labels =>
    .object [("kind", .string "enum"), ("name", .string name),
      ("labels", .object (labels.entries.map fun (ordinal, label) => (ordinal, .string label)))]
  | record name fields =>
    .object [("kind", .string "record"), ("name", .string name),
      ("fields", .array (fields.map FieldDecl.toJson))]
  | array name element =>
    .object [("kind", .string "array"), ("name", .string name), ("element", .string element)]

/-- The declared name. -/
def name : TypeDecl → String
  | enum name _ => name
  | record name _ => name
  | array name _ => name

end TypeDecl

namespace Schema

/-- The document as JSON. -/
def toJson (schema : Schema) : Json :=
  .object [("types", .array (schema.types.map TypeDecl.toJson))]

/-- The document as text, for any way to write JSON as text. -/
def toTextBy (print : Json → String) (schema : Schema) : String := print schema.toJson

/-- The document as text. -/
def toText : Schema → String := toTextBy Json.pretty

end Schema

/-! ### Reading -/

namespace Json

/-- The value of a member that may be missing but must not come twice. -/
def optionalMember? (members : List (String × Json)) (name : String) : Option (Option Json) :=
  match members.filter (·.1 = name) with
  | [] => some none
  | [(_, value)] => some (some value)
  | _ => none

/-- The value of a member that must come exactly once. -/
def member? (members : List (String × Json)) (name : String) : Option Json :=
  (optionalMember? members name).join

/-- A natural number of at most 64 bits. -/
def natural? : Json → Option Nat
  | integer value => if 0 ≤ value ∧ value < 18446744073709551616 then some value.toNat else none
  | _ => none

end Json

namespace FieldDecl

/-- Reads the number of components, which may be missing or null. -/
def componentsOfJson? : Option Json → Option (Option Nat)
  | none => some none
  | some .null => some none
  | some value => value.natural?.map some

/-- Reads a declaration. -/
def ofJson? : Json → Option FieldDecl
  | .object members => do
    let name ← (← Json.member? members "name").string?
    let type ← (← Json.member? members "type").string?
    let components ← componentsOfJson? (← Json.optionalMember? members "components")
    return ⟨name, type, components⟩
  | .array [name, type] => return ⟨← name.string?, ← type.string?, none⟩
  | .array [name, type, components] =>
    return ⟨← name.string?, ← type.string?, ← componentsOfJson? (some components)⟩
  | _ => none

end FieldDecl

namespace TypeDecl

/-- Reads the labels of an enum.  Of labels for one ordinal text the last one counts. -/
def labelsOfJson? (value : Json) : Option (SortedMap String String) := do
  let members ← value.object?
  let labels ← members.mapM fun (ordinal, label) => (label.string?).map (ordinal, ·)
  return SortedMap.ofList labels

/-- The member that holds what belongs to a kind, besides the name. -/
def contentName? : (kind : String) → Option String
  | "enum" => some "labels"
  | "record" => some "fields"
  | "array" => some "element"
  | _ => none

/-- The declaration with the given kind, name and content. -/
def ofParts? (kind : String) (name content : Json) : Option TypeDecl := do
  let name ← name.string?
  match kind with
  | "enum" => return enum name (← labelsOfJson? content)
  | "record" => return record name (← (← content.array?).mapM FieldDecl.ofJson?)
  | "array" => return array name (← content.string?)
  | _ => none

/-- Reads a declaration. -/
def ofJson? : Json → Option TypeDecl
  | .object members => do
    let kind ← (← Json.member? members "kind").string?
    let content ← Json.member? members (← contentName? kind)
    ofParts? kind (← Json.member? members "name") content
  | .array [kind, name, content] => do ofParts? (← kind.string?) name content
  | _ => none

end TypeDecl

namespace Schema

/-- Reads a document. -/
def ofJson? : Json → Option Schema
  | .object members => do
    let types ← (← Json.member? members "types").array?
    return ⟨← types.mapM TypeDecl.ofJson?⟩
  | .array [types] => do return ⟨← (← types.array?).mapM TypeDecl.ofJson?⟩
  | _ => none

/-- Reads the text of a document, or says that it is not one, for any way to read JSON from
text. -/
def ofTextBy (parse : String → Option Json) (text : String) : Except Error Schema :=
  match (parse text).bind ofJson? with
  | some schema => .ok schema
  | none => .error .malformedJson

/-- Reads the text of a document, or says that it is not one. -/
def ofText : String → Except Error Schema := ofTextBy (Json.parseKeeping? ["types"])

end Schema

end DeviceBlob
