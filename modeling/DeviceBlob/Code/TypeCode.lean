import DeviceBlob.Code.Declaration
import DeviceBlob.Code.Function
import DeviceBlob.Code.Names

/-!
# The code for one type

What is generated for a type in an address space: its declaration and its functions.  This module
makes the code of enums; the modules beside it make that of records and arrays.
-/

namespace DeviceBlob.Code

/-- The code for a type in one address space. -/
structure TypeCode where
  /-- The declaration of the type. -/
  declaration : Declaration
  /-- The functions on the type. -/
  functions : List Function
  deriving DecidableEq, Repr

/-- The function that measures a type, with the given body. -/
def sizeofFunction (names : Names) (type : DataType) (body : List Statement) : Function where
  result := "unsigned long"
  name := names.sizeof type
  arguments := [s!"{names.space.qualifier} char* blob"]
  body := body

/-- The function that points the members of a struct into a blob, with the given body. -/
def deserializeFunction (names : Names) (type : DataType) (body : List Statement) :
    Function where
  result := "void"
  name := names.deserialize type
  arguments := [s!"{names.space.qualifier} char* blob", s!"{names.typeName type}* self"]
  body := body

/-! ### Enums -/

/-- The labels of an enum with their ordinals, the undefined one first. -/
def allLabels (enum : EnumType) : List (Int × String) :=
  (0, EnumType.undefinedLabel) :: enum.labels.entries.map fun (ordinal, label) =>
    (ordinal.toInt, label)

/-- The code for an enum, which has no functions. -/
def ofEnum (names : Names) (enum : EnumType) : TypeCode where
  declaration := .enum (names.typeName (.enum enum)) ((allLabels enum).map fun (ordinal, label) =>
    ⟨Names.enumConstant (.enum enum) label, ordinal, Names.enumMember (.enum enum) label⟩)
  functions := []

end DeviceBlob.Code
