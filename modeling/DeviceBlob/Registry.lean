import DeviceBlob.DataType

/-!
# Registries of types

A registry holds the types of a schema under their names, in the order in which they were
registered.  The scalar kinds are known in every registry, and no type can take the name of another
one or of a scalar kind.
-/

namespace DeviceBlob

/-- Types known by name, besides the scalars. -/
structure Registry where
  /-- The registered types in the order of their registration. -/
  types : List DataType

namespace Registry

/-- The registry that knows the scalars only. -/
def empty : Registry := ⟨[]⟩

instance : Inhabited Registry := ⟨empty⟩

/-- The type with the given name. -/
def find? (registry : Registry) (name : String) : Option DataType :=
  match Scalar.ofName? name with
  | some kind => some (.scalar kind)
  | none => registry.types.find? (·.name = name)

/-- The type with the given name, or an error. -/
def resolve (registry : Registry) (name : String) : Except Error DataType :=
  match registry.find? name with
  | some type => .ok type
  | none => .error (.unsupportedType name)

/-- The registry with one type more. -/
def register (registry : Registry) (type : DataType) : Except Error Registry :=
  if (registry.find? type.name).isSome then
    .error (.invalidSchema (.typeAlreadyDefined type.name))
  else .ok ⟨registry.types ++ [type]⟩

/-- The kinds of numbers are in each registry. -/
@[simp] theorem find?_scalar (registry : Registry) (kind : Scalar) :
    registry.find? kind.name = some (.scalar kind) := by
  simp [find?]

end Registry

end DeviceBlob
