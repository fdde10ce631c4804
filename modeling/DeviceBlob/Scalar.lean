/-!
# Scalar kinds

The numeric leaves of a blob.  A scalar is stored in little-endian order and without alignment; a
boolean takes one signed byte and counts as true when that byte is positive.
-/

namespace DeviceBlob

/-- A kind of number with a fixed width. -/
inductive Scalar where
  | bool | int8 | uint8 | int16 | uint16 | int32 | uint32 | int64 | uint64 | float32 | float64
  deriving DecidableEq, Repr, Inhabited

namespace Scalar

/-- Every scalar kind. -/
def all : List Scalar :=
  [bool, int8, uint8, int16, uint16, int32, uint32, int64, uint64, float32, float64]

/-- The name of the kind in schema documents. -/
def name : Scalar → String
  | bool => "bool"
  | int8 => "int8"
  | uint8 => "uint8"
  | int16 => "int16"
  | uint16 => "uint16"
  | int32 => "int32"
  | uint32 => "uint32"
  | int64 => "int64"
  | uint64 => "uint64"
  | float32 => "float32"
  | float64 => "float64"

/-- The kind with the given name. -/
def ofName? (name : String) : Option Scalar :=
  all.find? (·.name = name)

/-- The number of bytes a scalar takes. -/
def width : Scalar → Nat
  | bool | int8 | uint8 => 1
  | int16 | uint16 => 2
  | int32 | uint32 | float32 => 4
  | int64 | uint64 | float64 => 8

/-- The kind holds floating-point numbers. -/
def isFloat : Scalar → Bool
  | float32 | float64 => true
  | _ => false

/-- The integers a kind can hold, from the least to the greatest. -/
def intRange? : Scalar → Option (Int × Int)
  | bool | int8 => some (-128, 127)
  | uint8 => some (0, 255)
  | int16 => some (-32768, 32767)
  | uint16 => some (0, 65535)
  | int32 => some (-2147483648, 2147483647)
  | uint32 => some (0, 4294967295)
  | int64 => some (-9223372036854775808, 9223372036854775807)
  | uint64 => some (0, 18446744073709551615)
  | float32 | float64 => none

/-- All kinds are listed. -/
theorem mem_all (kind : Scalar) : kind ∈ all := by
  cases kind <;> decide

/-- A kind is found by its name. -/
@[simp] theorem ofName?_name (kind : Scalar) : ofName? kind.name = some kind := by
  cases kind <;> rfl

/-- What is found by a name has that name. -/
theorem name_of_ofName? {name : String} {kind : Scalar} (h : ofName? name = some kind) :
    kind.name = name := by
  simpa using List.find?_some h

end Scalar

end DeviceBlob
