import DeviceBlob.VectorRun

/-!
# Types of the device language

How the kinds of scalars and their vectors are spelled in OpenCL C.
-/

namespace DeviceBlob

/-- The spelling of a kind of scalar.  A truth value is a byte. -/
def Scalar.cType : Scalar → String
  | .bool => "char"
  | .int8 => "char"
  | .uint8 => "uchar"
  | .int16 => "short"
  | .uint16 => "ushort"
  | .int32 => "int"
  | .uint32 => "uint"
  | .int64 => "long"
  | .uint64 => "ulong"
  | .float32 => "float"
  | .float64 => "double"

/-- The spelling of a vector of scalars. -/
def Scalar.vectorCType (kind : Scalar) (length : Nat) : String :=
  s!"{kind.cType}{length}"

/-- The spelling of a vector run's type. -/
def VectorRun.cType (run : VectorRun) : String :=
  run.kind.vectorCType run.length

end DeviceBlob
