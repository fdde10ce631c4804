import DeviceBlob.Proofs.Blob.Edit
import DeviceBlob.Proofs.Blob.Words

/-!
# Which counts are corrected when an array is opened

Bytes that are opened as an array are checked for the capacities in all headers, but counted is only
the array itself.  So its count is right whatever its header held, and no other byte is changed
(`counts_of_openBytes`): what can be opened from it, step by step, is what can be opened from the
bytes as they were given (`opens_reconcile_iff`), and an array inside an element goes on reporting
what its own header says.
-/

namespace DeviceBlob

namespace Blob

variable {compiler : Compiler} {type : DataType} {bytes : Bytes} {params? : Option Params}
  {blob : Blob}

/-- Bytes that are opened have a layout whose headers they hold, wherever the parameters are from. -/
theorem headed_of_openBytes (opened : openBytes compiler type bytes params? = .ok blob) :
    blob.bytes = bytes ∧ blob.layout.size ≤ bytes.length ∧ blob.layout.Headed bytes 0 := by
  cases params? with
  | some params => exact (openBytes_some_iff.1 opened).2
  | none =>
    obtain ⟨params, -, given⟩ := openBytes_none_eq_ok.1 opened
    exact (openBytes_some_iff.1 given).2

end Blob

namespace SlotArray

/-- What is opened from an array step by step: the elements that it holds, the records and arrays in
them, and the elements that those arrays hold. -/
inductive Opens (array : SlotArray) : Blob → Prop
  | element {slot : Nat} {element : Blob} (held : array.get? slot = some element) :
      Opens array element
  | record {blob : Blob} {name : String} {place : Field} (opened : Opens array blob)
      (found : blob.recordPlace name = .ok place) : Opens array (blob.part place)
  | array {blob : Blob} {name : String} {place : Field} (opened : Opens array blob)
      (found : blob.arrayPlace name = .ok place) : Opens array (blob.part place)
  | inner {blob element : Blob} {inner : SlotArray} {slot : Nat} (opened : Opens array blob)
      (isArray : ofBytes blob.layout blob.bytes = .ok inner) (held : inner.get? slot = some element) :
      Opens array element

/-- An array that is opened inside an element of another one, at any depth. -/
def Nests (array inner : SlotArray) : Prop :=
  ∃ blob, array.Opens blob ∧ ofBytes blob.layout blob.bytes = .ok inner

/-- The array reports as many elements as it holds. -/
def Exact (array : SlotArray) : Prop := array.count = array.present.length

variable {array other : SlotArray}

/-- Arrays that hold the same elements open the same. -/
theorem Opens.congr (same : ∀ slot, array.get? slot = other.get? slot) {blob : Blob}
    (opened : array.Opens blob) : other.Opens blob := by
  induction opened with
  | @element slot _ held => exact .element ((same slot).symm.trans held)
  | record _ found ih => exact .record ih found
  | array _ found ih => exact .array ih found
  | inner _ isArray held ih => exact .inner ih isArray held

/-! ### What a correction changes -/

/-- A correction counts again and keeps what was found. -/
theorem reconcile_eq_recount (room : Slots.Holds array.capacity array.element array.bytes)
    (fresh : array.correction = none) :
    array.reconcile.2 = { array.recount with correction := array.reconcile.1 } := by
  unfold reconcile
  by_cases right : Slots.storedCount array.bytes = array.present.length
  · have kept : Slots.recount array.capacity array.element array.bytes = array.bytes :=
      Slots.writeWord_of_readWord (by have := room.header; omega) right
    simp only [right, if_true, recount, kept, ← fresh]
  · simp only [right, if_false]

/-- Counting again is seen in no slot. -/
theorem get?_recount (room : Slots.Holds array.capacity array.element array.bytes) (slot : Nat) :
    array.recount.get? slot = array.get? slot := by
  have front : Layout.headerSize ≤ array.element.slotOffset slot := Slots.headerSize_le_slotOffset
  have index : array.recount.index? slot = array.index? slot := by
    have word : Slots.indexAt array.element array.recount.bytes slot =
        Slots.indexAt array.element array.bytes slot :=
      Slots.readWord_writeWord_apart (by have := room.header; omega) (Or.inr front)
    unfold index?
    rw [show array.recount.element = array.element from rfl, word]
    rfl
  have content : array.recount.slotBlob slot = array.slotBlob slot :=
    congrArg (Blob.mk array.element) (Slots.slot_setCount room _)
  unfold get? isPresent
  rw [index, content]

/-- A recount leaves the exact count. -/
theorem exact_recount (room : Slots.Holds array.capacity array.element array.bytes)
    (small : array.capacity ≤ 2147483647) : array.recount.Exact := by
  have few : array.present.length ≤ array.capacity := Slots.length_present_le _ _ _
  have stored : Slots.storedCount array.recount.bytes = array.present.length :=
    Slots.storedCount_setCount room (Nat.le_trans few small)
  have present : array.recount.present = array.present := Slots.present_setCount room _
  rw [Exact, count, stored, present, Int.toNat_natCast]

/-- **Opening bytes as an array makes its own count right** whatever its header held, says what the
correction was if it took one, and changes no other byte.  The arrays inside the elements are opened
as they were given, so all counts are right exactly if those of the nested arrays were. -/
theorem counts_of_openBytes {compiler : Compiler} {type : DataType} {bytes : Bytes}
    {params? : Option Params} (opened : openBytes compiler type bytes params? = .ok array) :
    ∃ given, ofBytes array.layout bytes = .ok given ∧
      array.Exact ∧
      array.correction = (if Slots.storedCount bytes = given.present.length then none
        else some ⟨Slots.storedCount bytes, given.present.length⟩) ∧
      array.bytes.length = bytes.length ∧
      (∀ start length, start + length ≤ 4 ∨ 8 ≤ start →
        array.bytes.slice start length = bytes.slice start length) ∧
      (∀ blob, array.Opens blob ↔ given.Opens blob) ∧
      ((∀ inner, inner = array ∨ array.Nests inner → inner.Exact) ↔
        ∀ inner, given.Nests inner → inner.Exact) := by
  obtain ⟨blob, found, opened⟩ := bind_eq_ok.1 opened
  obtain ⟨given, isArray, same⟩ := bind_eq_ok.1 opened
  obtain ⟨rfl, room, headed⟩ := Blob.headed_of_openBytes found
  obtain ⟨layout, held⟩ := Blob.ofBytes_eq_ok isArray
  have fresh : given.correction = none := by
    unfold ofBytes at isArray
    split at isArray
    · split at isArray <;> cases isArray
      rfl
    · cases isArray
  rw [← layout, ← held] at isArray room headed
  have slots : Slots.Holds given.capacity given.element given.bytes := room
  have small : given.capacity ≤ 2147483647 := by
    have word := (@Slots.isWord_readWord given.bytes 0 (by have := slots.header; omega)).2
    rw [headed.1] at word
    exact Int.ofNat_le.1 word
  obtain rfl : _ = array := pure_eq_ok.1 same
  rw [reconcile_eq_recount slots fresh, ← held]
  have elements : ∀ slot,
      SlotArray.get? { given.recount with correction := given.reconcile.1 } slot =
        given.get? slot := get?_recount slots
  have opens : ∀ blob, SlotArray.Opens { given.recount with correction := given.reconcile.1 } blob ↔
      given.Opens blob := fun blob =>
    ⟨Opens.congr elements, Opens.congr fun slot => (elements slot).symm⟩
  have right := exact_recount slots small
  refine ⟨given, isArray, right, ?_, Slots.length_setCount slots _, ?_, opens, ?_⟩
  · show given.reconcile.1 = _
    unfold reconcile
    simp only
    split <;> rfl
  · intro start length apart
    exact Slots.slice_writeWord_apart (by have := slots.header; omega) apart
  · constructor
    · rintro all inner ⟨blob, reached, here⟩
      exact all inner (Or.inr ⟨blob, (opens blob).2 reached, here⟩)
    · rintro all inner (rfl | ⟨blob, reached, here⟩)
      · exact right
      · exact all inner ⟨blob, (opens blob).1 reached, here⟩

end SlotArray

namespace Sheet

/-- A cell with an array of marks. -/
def cellType : DataType :=
  .record "Cell" [("index", .scalar .int32),
    ("marks", .array "Marks" (.record "Mark" [("index", .scalar .int32)]))]

/-- A mark in bytes. -/
def markLayout : Layout := .record "Mark" [("index", .scalar .int32)]

/-- A cell in bytes, with room for one mark. -/
def cellLayout : Layout :=
  .record "Cell" [("index", .scalar .int32), ("marks", .array "Marks" 1 markLayout)]

/-- One cell, in an array that says to have as many as given.  The cell says to have seven marks,
but its only slot for a mark is empty. -/
def cells (count : UInt8) : Bytes :=
  [1, 0, 0, 0, count, 0, 0, 0] ++
    [0, 0, 0, 0, 1, 0, 0, 0, 7, 0, 0, 0, 255, 255, 255, 255]

/-- The cell as it is opened. -/
def openedCells : SlotArray := ⟨"Cells", 1, cellLayout, cells 1, some ⟨5, 1⟩⟩

/-- The marks of the cell as they are opened. -/
def openedMarks : SlotArray :=
  ⟨"Marks", 1, markLayout, [1, 0, 0, 0, 7, 0, 0, 0, 255, 255, 255, 255], none⟩

/-- The cells open with the outer count corrected. -/
theorem openBytes_cells :
    SlotArray.openBytes (Compiler.mk .aligned 5000) (.array "Cells" cellType) (cells 5) none =
      .ok openedCells := rfl

/-- Their first slot holds an array. -/
theorem nests_openedCells : openedCells.Nests openedMarks := by
  have held : openedCells.get? 0 = some (openedCells.slotBlob 0) := rfl
  have found : (openedCells.slotBlob 0).arrayPlace "marks" =
      .ok ⟨"marks", 4, .array "Marks" 1 markLayout⟩ := rfl
  exact ⟨_, .array (.element held) found, rfl⟩

end Sheet

namespace SlotArray

/-- A count of five is corrected to one. -/
theorem counts_of_openBytes_cells :
    openBytes (Compiler.mk .aligned 5000) (.array "Cells" Sheet.cellType) (Sheet.cells 5) none =
        .ok Sheet.openedCells ∧
      Sheet.openedCells.Exact ∧ Sheet.openedCells.bytes.slice 8 16 = (Sheet.cells 5).slice 8 16 := by
  obtain ⟨given, -, right, -, -, kept, -⟩ := counts_of_openBytes Sheet.openBytes_cells
  exact ⟨Sheet.openBytes_cells, right, kept 8 16 (Or.inr (Nat.le_refl 8))⟩

/-- The marks of a cell are reported as seven although there are none, also after the count of the
cells was corrected. -/
theorem not_exact_marks_of_openBytes :
    openBytes (Compiler.mk .aligned 5000) (.array "Cells" Sheet.cellType) (Sheet.cells 5) none =
        .ok Sheet.openedCells ∧
      Sheet.openedCells.Nests Sheet.openedMarks ∧
      Sheet.openedMarks.count = 7 ∧ Sheet.openedMarks.present = [] ∧ ¬Sheet.openedMarks.Exact := by
  have reported : Sheet.openedMarks.count = 7 := by decide
  have held : Sheet.openedMarks.present = [] := by decide
  refine ⟨Sheet.openBytes_cells, Sheet.nests_openedCells, reported, held, ?_⟩
  rw [Exact, reported, held]
  decide

end SlotArray

end DeviceBlob
