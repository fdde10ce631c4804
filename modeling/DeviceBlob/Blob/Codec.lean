import DeviceBlob.Bytes
import DeviceBlob.Layout.Basic
import DeviceBlob.Value

/-!
# Single values as bytes

How one scalar or one label is read from its bytes and written to them.  Integers must be in the
range of their kind, and nothing is ever cut off; a floating-point number of single precision is
rounded.  An unsigned 64-bit number above the signed range is read as the signed number with the
same bytes.
-/

namespace DeviceBlob

namespace Scalar

/-- The value that the bytes of a scalar stand for. -/
def read (kind : Scalar) (bytes : Bytes) : Value :=
  match kind with
  | bool => .bool (0 < bytes.toInt)
  | uint8 | uint16 | uint32 | uint64 => .int (.ofNat bytes.toNat)
  | int8 | int16 | int32 | int64 => .int (.ofInt bytes.toInt)
  | float32 => .float (.ofSingleBits (.ofNat bytes.toNat))
  | float64 => .float ⟨.ofNat bytes.toNat⟩

/-- A value of the wrong sort was given for a field. -/
def mismatch (kind : Scalar) (field : String) (value : Value) : Error :=
  .typeMismatch field kind.name value.kindName

/-- The integer is in the range of the kind. -/
def holds (kind : Scalar) (n : Int) : Bool :=
  match kind.intRange? with
  | some (least, greatest) => least ≤ n && n ≤ greatest
  | none => true

/-- The bytes of an integer in the range of its kind. -/
def writeInt (kind : Scalar) (field : String) (n : Int) : Except Error Bytes :=
  if kind.holds n then .ok (.ofInt kind.width n)
  else .error (.typeMismatch field kind.name s!"out of range value {n}")

/-- The bytes of a value that is given for a field. -/
def write (kind : Scalar) (field : String) (value : Value) : Except Error Bytes :=
  match kind with
  | bool =>
    match value.bool? with
    | some truth => .ok [if truth then 1 else 0]
    | none => .error (kind.mismatch field value)
  | float32 =>
    match value.double? with
    | some x => .ok (.ofNat 4 x.toSingleBits.toNat)
    | none => .error (kind.mismatch field value)
  | float64 =>
    match value.double? with
    | some x => .ok (.ofNat 8 x.bits.toNat)
    | none => .error (kind.mismatch field value)
  | _ =>
    match value.int? with
    | some n => kind.writeInt field n.toInt
    | none => .error (kind.mismatch field value)

end Scalar

namespace EnumType

/-- The label that the bytes of an ordinal stand for. -/
def read (type : EnumType) (bytes : Bytes) : Value :=
  .label ((type.label? bytes.toInt).getD undefinedLabel)

/-- The ordinal of a label or of a declared ordinal. -/
def ordinalOf (type : EnumType) (field : String) : Value → Except Error Int
  | .label text => do return (← type.ordinal text).toInt
  | .int n => do
    if n.toInt ≠ 0 then
      let _ ← type.label n.toInt false
    return n.toInt
  | other => .error (.typeMismatch field ("enum " ++ type.name) other.kindName)

/-- The bytes of a value that is given for a field. -/
def write (type : EnumType) (field : String) (value : Value) : Except Error Bytes := do
  return .ofInt 4 (← type.ordinalOf field value)

end EnumType

namespace Layout

/-- The value of bytes that hold a scalar, padding or a label; arrays and records have none. -/
def read? : Layout → Bytes → Option Value
  | scalar kind, bytes => some (kind.read bytes)
  | padding kind, bytes => some (kind.read bytes)
  | enum type, bytes => some (type.read bytes)
  | _, _ => none

end Layout

/-! ### The length of what is written -/

namespace Scalar

/-- An integer takes the bytes of its kind. -/
theorem length_writeInt {kind : Scalar} {field : String} {n : Int} {bytes : Bytes}
    (h : kind.writeInt field n = .ok bytes) : bytes.length = kind.width := by
  unfold writeInt at h
  split at h <;> cases h
  simp

/-- A number takes the bytes of its kind. -/
theorem length_write {kind : Scalar} {field : String} {value : Value} {bytes : Bytes}
    (h : kind.write field value = .ok bytes) : bytes.length = kind.width := by
  unfold write at h
  split at h
  · split at h <;> cases h
    rfl
  · split at h <;> cases h
    simp [width]
  · split at h <;> cases h
    simp [width]
  · split at h
    · exact length_writeInt h
    · cases h

end Scalar

namespace EnumType

/-- A label takes four bytes. -/
theorem length_write {type : EnumType} {field : String} {value : Value} {bytes : Bytes}
    (h : type.write field value = .ok bytes) : bytes.length = 4 := by
  unfold write at h
  cases ordinal : type.ordinalOf field value with
  | error e => simp [ordinal, bind, Except.bind] at h
  | ok n =>
    simp only [ordinal, bind, Except.bind, pure, Except.pure] at h
    cases h
    simp

end EnumType

end DeviceBlob
