import DeviceBlob.Proofs.Blob.Codec
import DeviceBlob.Proofs.Bytes

/-!
# Bytes that are written again as they were read

Not all bytes are the bytes of a value: a truth value is stored as `0` or `1`, an enum has bytes for
the ordinals that it declares only, and of the patterns that are not numbers of single precision
only some are stored.  Bytes are `Stored` if writing what is read from them gives the same bytes.
What was written is (`Scalar.stored_of_write`, `EnumType.stored_of_write`), and so is what a blank
blob holds.
-/

namespace DeviceBlob

namespace Scalar

/-- What is read from the bytes of a scalar is written as the same bytes. -/
def Stored (kind : Scalar) (bytes : Bytes) : Prop :=
  ∀ field, kind.write field (kind.read bytes) = .ok bytes

/-- A stored number has the width of its kind. -/
theorem Stored.length {kind : Scalar} {bytes : Bytes} (h : kind.Stored bytes) :
    bytes.length = kind.width :=
  length_write (h "")

/-- What was written for a scalar is written again. -/
theorem stored_of_write {kind : Scalar} {field : String} {value : Value} {bytes : Bytes}
    (h : kind.write field value = .ok bytes) : kind.Stored bytes := by
  intro other
  by_cases integer : kind ≠ bool ∧ kind.isFloat = false
  · obtain ⟨n, -, holds, rfl⟩ := (write_int_eq_ok_iff integer.1 integer.2).1 h
    rw [read_ofInt integer.1 integer.2 holds]
    exact (write_int_eq_ok_iff integer.1 integer.2).2 ⟨n, rfl, holds, rfl⟩
  · cases kind with
    | bool =>
      simp only [write] at h
      split at h
      · next truth _ =>
        cases h
        cases truth <;> rfl
      · cases h
    | float32 =>
      simp only [write] at h
      split at h
      · next x _ =>
        cases h
        rw [read_ofNat_float32]
        show Except.ok (Bytes.ofNat 4 x.toSingle.toSingleBits.toNat) = _
        rw [Double.toSingleBits_toSingle]
      · cases h
    | float64 =>
      simp only [write] at h
      split at h
      · next x _ =>
        cases h
        rw [read_float64]
        rfl
      · cases h
    | _ => exact absurd ⟨by decide, rfl⟩ integer

/-- Zeros are the bytes of a number. -/
theorem stored_zeros (kind : Scalar) : kind.Stored (.zeros kind.width) := by
  have zero : ∃ value, kind.write "" value = .ok (.zeros kind.width) := by
    cases kind with
    | bool => exact ⟨.bool false, rfl⟩
    | float32 | float64 => exact ⟨.float ⟨0⟩, by decide⟩
    | _ => exact ⟨.int 0, by decide⟩
  obtain ⟨value, written⟩ := zero
  exact stored_of_write written

/-- Any four bytes are those of a 32-bit integer. -/
theorem stored_int32 {bytes : Bytes} (h : bytes.length = 4) : int32.Stored bytes := by
  have bounds := Bytes.toInt_bounds bytes
  rw [h] at bounds
  simp only [Bytes.range] at bounds
  have value : (Int64.ofInt bytes.toInt).toInt = bytes.toInt :=
    Int64.toInt_ofInt_of_le (by omega) (by omega)
  refine fun field => (write_int_eq_ok_iff (by decide) rfl).2 ⟨.ofInt bytes.toInt, rfl, ?_, ?_⟩
  · rw [value]
    simp only [holds, intRange?, Bool.and_eq_true, decide_eq_true_eq]
    omega
  · rw [value]
    exact Bytes.eq_ofInt_of_toInt h rfl

end Scalar

namespace EnumType

/-- What is read from the bytes of an enum is written as the same bytes. -/
def Stored (type : EnumType) (bytes : Bytes) : Prop :=
  ∀ field, type.write field (type.read bytes) = .ok bytes

/-- A stored label has four bytes. -/
theorem Stored.length {type : EnumType} {bytes : Bytes} (h : type.Stored bytes) :
    bytes.length = 4 :=
  length_write (h "")

/-- Zeros stand for `undefined`. -/
theorem stored_zeros (type : EnumType) : type.Stored (.zeros 4) := by
  intro field
  have zero : Bytes.zeros 4 = .ofInt 4 0 := by decide
  rw [zero, read_zero]
  rfl

/-- An enum has bytes for a declared label. -/
theorem stored_of_entry {type : EnumType} {ordinal : Int32} {text : String}
    (mem : (ordinal, text) ∈ type.labels.entries) : type.Stored (.ofInt 4 ordinal.toInt) := by
  intro field
  rw [read_of_entry mem]
  simp only [write, ordinalOf, ordinal_of_entry mem, ok_bind]
  rfl

/-- What was written for an enum is written again. -/
theorem stored_of_write {type : EnumType} {field : String} {value : Value} {bytes : Bytes}
    (h : type.write field value = .ok bytes) : type.Stored bytes := by
  obtain ⟨ordinal, given, same⟩ := bind_eq_ok.1 h
  obtain rfl := pure_eq_ok.1 same
  have zero : Bytes.ofInt 4 0 = .zeros 4 := by decide
  cases value with
  | label text =>
    obtain ⟨found, looked, same⟩ := bind_eq_ok.1 given
    obtain rfl := pure_eq_ok.1 same
    rcases ordinal_eq_ok looked with ⟨-, rfl⟩ | entry
    · exact zero ▸ type.stored_zeros
    · exact stored_of_entry entry
  | int n =>
    obtain ⟨rfl, undefined | ⟨text, declared⟩⟩ := ordinalOf_int_eq_ok.1 given
    · rw [undefined, zero]
      exact type.stored_zeros
    · obtain ⟨declaredFor, same, entry⟩ := label?_eq_some_iff.1 declared
      rw [same]
      exact stored_of_entry entry
  | bool _ | float _ | list _ | map _ => cases given

end EnumType

end DeviceBlob
