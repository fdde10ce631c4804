import DeviceBlob.Blob.Basic
import DeviceBlob.Proofs.Blob.Slots
import DeviceBlob.Proofs.Blob.Write

/-!
# Integer fields of a blob

Reading and setting a field of 32 bits by its name comes down to reading and writing the word at
its offset (`getInt32_eq`, `set_int32_eq`), and never fails.
-/

namespace DeviceBlob

/-- The layout has a 32-bit integer of the given name at an offset. -/
def Layout.HasWord (layout : Layout) (name : String) (offset : Nat) : Prop :=
  layout.accessor? name = some ⟨name, offset, .scalar .int32⟩ ∧ offset + 4 ≤ layout.size

namespace Blob

variable {blob : Blob} {name : String} {offset : Nat}

/-- What a word is read as. -/
theorem getInt32_eq (h : blob.layout.HasWord name offset)
    (room : blob.layout.size ≤ blob.bytes.length) :
    blob.getInt32 name = .ok (Int32.ofInt (Slots.readWord blob.bytes offset)) := by
  obtain ⟨found, inside⟩ := h
  have fits := Slots.isWord_readWord (Nat.le_trans inside room)
  have value : (Int64.ofInt (Slots.readWord blob.bytes offset)).toInt =
      Slots.readWord blob.bytes offset := by
    obtain ⟨low, high⟩ := fits
    exact Int64.toInt_ofInt_of_le (by omega) (by omega)
  have held : Scalar.int32.holds (Slots.readWord blob.bytes offset) = true := by
    simpa [Scalar.holds, Scalar.intRange?, Slots.IsWord] using fits
  have read : blob.get name = .ok (.int (.ofInt (Slots.readWord blob.bytes offset))) := by
    simp only [get, accessor, found, ok_bind]
    rfl
  simp only [getInt32, read, ok_bind, Value.int?, value, held, if_true]
  rw [Int64.toInt32_ofInt]
  rfl

/-- A word that is read is the value of the number it is read as. -/
theorem toInt_ofInt_readWord (h : blob.layout.HasWord name offset)
    (room : blob.layout.size ≤ blob.bytes.length) :
    (Int32.ofInt (Slots.readWord blob.bytes offset)).toInt = Slots.readWord blob.bytes offset := by
  obtain ⟨low, high⟩ := Slots.isWord_readWord (Nat.le_trans h.2 room)
  exact Int32.toInt_ofInt_of_le (by omega) (by omega)

/-- Setting a word writes it at its offset. -/
theorem set_int32_eq (h : blob.layout.HasWord name offset) (n : Int32) :
    blob.set name (.int n.toInt64) =
      .ok { blob with bytes := Slots.writeWord blob.bytes offset n.toInt } := by
  have low := n.le_toInt
  have high := n.toInt_lt
  have fits : Slots.IsWord n.toInt64.toInt := by
    rw [Int32.toInt_toInt64]
    unfold Slots.IsWord
    omega
  have written : Scalar.int32.write name (.int n.toInt64) = .ok (.ofInt Slots.wordSize n.toInt) := by
    refine Scalar.write_int32_eq_ok_iff.2 ⟨n.toInt64, rfl, fits, ?_⟩
    rw [Int32.toInt_toInt64]
  simp only [set, accessor, h.1, ok_bind, encoded, written]
  rfl

end Blob

end DeviceBlob
