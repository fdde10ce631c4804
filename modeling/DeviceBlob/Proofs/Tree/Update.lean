import DeviceBlob.Proofs.Layout.Tiling
import DeviceBlob.Proofs.Tree.Slots
import DeviceBlob.Proofs.Tree.WriteBack

/-!
# Writing a tree into a blob that is in use

Whether a tree is accepted, and how it is refused, depends on the layout and on the tree alone and
not on the bytes that it is written over (`sameOutcome_write`).  A tree that is accepted leaves
bytes which it would not change again (`write_again`), and it changes no byte but those of scalars
and enums, of the counts of arrays and of the slots that one of its names is for
(`getElem?_of_write`).  Each is shown for the two passes one by one, with the elements of an array
written like blobs of their own.  Main statement: `Blob.setTree_stable`.
-/

namespace DeviceBlob

namespace Layout

/-! ### The outcome does not depend on the bytes -/

section Outcome

variable {owner : String} {flat : SortedMap String Value}

mutual

/-- The first pass ends alike on any bytes. -/
theorem sameOutcome_writeLeaves : ∀ (layout : Layout) (address : String) (bytes other : Bytes),
    SameOutcome (fun _ _ => True) (writeLeaves owner flat address layout bytes)
      (writeLeaves owner flat address layout other)
  | scalar _, _, _, _ | enum _, _, _, _ => .refl (fun _ => trivial) _
  | padding _, _, _, _ | array _ _ _, _, _, _ => trivial
  | record _ fields, address, bytes, other => sameOutcome_writeLeafFields fields address bytes other

/-- So it does over fields. -/
theorem sameOutcome_writeLeafFields : ∀ (fields : List (String × Layout)) (address : String)
    (bytes other : Bytes), SameOutcome (fun _ _ => True)
      (writeLeafFields owner flat address fields bytes)
      (writeLeafFields owner flat address fields other)
  | [], _, _, _ => trivial
  | (name, layout) :: rest, address, _, _ =>
    .bind (sameOutcome_writeLeaves layout (Name.join address name) _ _) fun _ _ _ =>
      .bind (sameOutcome_writeLeafFields rest address _ _) fun _ _ _ => trivial

end

/-- Where the second pass has one outcome, writing has. -/
theorem sameOutcome_write_of {layout : Layout}
    (arrays : ∀ (address : String) (bytes other : Bytes) (entries : Entries),
      SameOutcome (fun a b => a.2 = b.2) (writeArrays address layout bytes entries)
        (writeArrays address layout other entries)) (bytes other : Bytes) :
    SameOutcome (fun _ _ => True) (layout.write bytes flat) (layout.write other flat) := by
  refine .bind (sameOutcome_writeLeaves layout _ bytes other) fun leaves leaves' _ => ?_
  refine .bind (arrays _ leaves leaves' _) ?_
  rintro ⟨filled, rest⟩ ⟨filled', _⟩ rfl
  exact .bind (.refl (fun _ => rfl) (checkAllTaken layout.typeName rest)) fun _ _ _ => trivial

mutual

/-- The second pass has one outcome and leaves the same entries. -/
theorem sameOutcome_writeArrays : ∀ (layout : Layout) (address : String) (bytes other : Bytes)
    (entries : Entries), SameOutcome (fun a b => a.2 = b.2)
      (writeArrays address layout bytes entries) (writeArrays address layout other entries)
  | scalar _, _, _, _, _ | enum _, _, _, _, _ | padding _, _, _, _, _ => rfl
  | record _ fields, address, bytes, other, entries =>
    sameOutcome_writeArrayFields fields address bytes other entries
  | array _ capacity element, address, bytes, other, entries => by
    have step : ∀ (b c : Bytes) (group : Nat × SortedMap String Value), True →
        SameOutcome (fun _ _ => True) (writeSlot capacity element b group)
          (writeSlot capacity element c group) := by
      intro b c group _
      unfold writeSlot
      split
      · exact rfl
      · exact .bind (sameOutcome_write_of (sameOutcome_writeArrays element) _ _)
          fun _ _ _ => trivial
    rw [writeArrays_array, writeArrays_array]
    exact .bind (.foldlM step _ trivial) fun _ _ _ => rfl

/-- The second pass over fields ends alike on any bytes, with the same entries left over. -/
theorem sameOutcome_writeArrayFields : ∀ (fields : List (String × Layout)) (address : String)
    (bytes other : Bytes) (entries : Entries), SameOutcome (fun a b => a.2 = b.2)
      (writeArrayFields address fields bytes entries)
      (writeArrayFields address fields other entries)
  | [], _, _, _, _ => rfl
  | (name, layout) :: rest, address, _, _, entries => by
    refine .bind (sameOutcome_writeArrays layout (Name.join address name) _ _ entries) ?_
    rintro ⟨here, between⟩ ⟨here', _⟩ rfl
    exact .bind (sameOutcome_writeArrayFields rest address _ _ between) fun _ _ same => same

end

/-- A tree is accepted, or refused with one error, whatever it is written over. -/
theorem sameOutcome_write (layout : Layout) (bytes other : Bytes) :
    SameOutcome (fun _ _ => True) (layout.write bytes flat) (layout.write other flat) :=
  sameOutcome_write_of (sameOutcome_writeArrays layout) bytes other

end Outcome

/-! ### Writing again -/

section Again

variable {owner : String} {flat : SortedMap String Value}

mutual

/-- After both passes the first one finds its values in place. -/
theorem writeLeaves_again : ∀ {layout : Layout} {address address' : String}
    {bytes leaves out : Bytes} {entries left : Entries}, bytes.length = layout.size →
      writeLeaves owner flat address layout bytes = .ok leaves →
      writeArrays address' layout leaves entries = .ok (out, left) →
        writeLeaves owner flat address layout out = .ok out
  | scalar _, _, _, _, _, _, _, _, _, first, second
  | enum _, _, _, _, _, _, _, _, _, first, second => by
    cases second
    exact first
  | padding _, _, _, _, _, _, _, _, _, _, _ | array _ _ _, _, _, _, _, _, _, _, _, _, _ => rfl
  | record _ _, _, _, _, _, _, _, _, size, first, second =>
    writeLeafFields_again size first second

/-- After both passes the first one finds nothing to change. -/
theorem writeLeafFields_again : ∀ {fields : List (String × Layout)} {address address' : String}
    {bytes leaves out : Bytes} {entries left : Entries}, bytes.length = fieldsSize fields →
      writeLeafFields owner flat address fields bytes = .ok leaves →
      writeArrayFields address' fields leaves entries = .ok (out, left) →
        writeLeafFields owner flat address fields out = .ok out
  | [], _, _, _, _, _, _, _, _, _, _ => rfl
  | (_, layout) :: rest, _, _, _, _, _, _, _, size, first, second => by
    obtain ⟨here, others, here₁, others₁, rfl⟩ := writeLeafFields_cons_eq_ok_iff.1 first
    obtain ⟨front, back⟩ := length_take_drop size
    have long := length_writeLeaves front here₁
    obtain ⟨here', _, others', here₂, others₂, rfl⟩ := writeArrayFields_cons_eq_ok_iff.1 second
    rw [List.take_left' long] at here₂
    rw [List.drop_left' long] at others₂
    have long' := length_writeArrays long here₂
    refine writeLeafFields_cons_eq_ok_iff.2 ⟨here', others', ?_, ?_, rfl⟩
    · rw [List.take_left' long']
      exact writeLeaves_again front here₁ here₂
    · rw [List.drop_left' long']
      exact writeLeafFields_again back others₁ others₂

end

/-- Where the second pass changes nothing again, writing does not. -/
theorem write_again_of {layout : Layout}
    (arrays : ∀ {address : String} {bytes out : Bytes} {entries left : Entries},
      bytes.length = layout.size → writeArrays address layout bytes entries = .ok (out, left) →
        writeArrays address layout out entries = .ok (out, left))
    {bytes out : Bytes} (size : bytes.length = layout.size)
    (written : layout.write bytes flat = .ok out) : layout.write out flat = .ok out := by
  obtain ⟨leaves, left, first, second, none⟩ := write_eq_ok_iff.1 written
  exact write_eq_ok_iff.2 ⟨out, left, writeLeaves_again size first second,
    arrays (length_writeLeaves size first) second, none⟩

end Again

mutual

/-- What the second pass has filled it fills with the same again, and it leaves the same entries. -/
theorem writeArrays_again : ∀ {layout : Layout} {address : String} {bytes out : Bytes}
    {entries left : Entries}, bytes.length = layout.size →
      writeArrays address layout bytes entries = .ok (out, left) →
        writeArrays address layout out entries = .ok (out, left)
  | scalar _, _, _, _, _, _, _, h | enum _, _, _, _, _, _, _, h
  | padding _, _, _, _, _, _, _, h => by
    cases h
    rfl
  | record _ _, _, _, _, _, _, size, h => writeArrayFields_again size h
  | array name capacity element, address, bytes, _, entries, _, size, h => by
    rw [writeArrays_array, bind_eq_ok] at h
    obtain ⟨filled, folded, same⟩ := h
    cases same
    have room : Slots.Holds capacity element bytes := Nat.le_of_eq size.symm
    obtain ⟨room', -, each⟩ :=
      slots_of_foldlM room (takenSlots address entries).nodup_keys folded
    have held : Slots.Holds capacity element (Slots.recount capacity element filled) :=
      room'.setCount _
    -- Each slot holds what was written into it, and the count is right already.
    have kept : ∀ group ∈ (takenSlots address entries).entries,
        writeSlot capacity element (Slots.recount capacity element filled) group =
          .ok (Slots.recount capacity element filled) := by
      intro group mem
      obtain ⟨inside, put⟩ := each group mem
      have slot : Slots.slot element (Slots.recount capacity element filled) group.1 =
          Slots.slot element filled group.1 := Slots.slot_setCount room' _
      refine writeSlot_eq_ok_iff.2 ⟨inside, Slots.slot element filled group.1, ?_, ?_⟩
      · rw [slot]
        exact write_again_of writeArrays_again (Slots.length_slot room inside) put
      · rw [← slot, Slots.setSlot_slot held inside]
    rw [writeArrays_array, foldlM_eq_self kept, ok_bind, (Slots.counted_recount room').recount_eq]
    rfl

/-- After the second pass over fields it finds nothing to change. -/
theorem writeArrayFields_again : ∀ {fields : List (String × Layout)} {address : String}
    {bytes out : Bytes} {entries left : Entries}, bytes.length = fieldsSize fields →
      writeArrayFields address fields bytes entries = .ok (out, left) →
        writeArrayFields address fields out entries = .ok (out, left)
  | [], _, _, _, _, _, _, h => by
    cases h
    rfl
  | (_, layout) :: rest, _, _, _, _, _, size, h => by
    obtain ⟨here, between, others, first, second, rfl⟩ := writeArrayFields_cons_eq_ok_iff.1 h
    obtain ⟨front, back⟩ := length_take_drop size
    have long := length_writeArrays front first
    refine writeArrayFields_cons_eq_ok_iff.2 ⟨here, between, others, ?_, ?_, rfl⟩
    · rw [List.take_left' long]
      exact writeArrays_again front first
    · rw [List.drop_left' long]
      exact writeArrayFields_again back second

end

/-- A tree that was written changes nothing when it is written again. -/
theorem write_again {layout : Layout} {bytes out : Bytes} {flat : SortedMap String Value}
    (size : bytes.length = layout.size) (written : layout.write bytes flat = .ok out) :
    layout.write out flat = .ok out :=
  write_again_of writeArrays_again size written

/-! ### Bytes that stay as they are -/

/-- A byte of a part is so far behind the start of it. -/
theorem exists_of_owns {part : Field} {byte : Nat} (owns : part.Owns byte) :
    ∃ i < part.content.size, byte = part.offset + i := by
  obtain ⟨i, rfl⟩ := Nat.exists_eq_add_of_le owns.1
  exact ⟨i, Nat.lt_of_add_lt_add_left owns.2, rfl⟩

/-- Writing entries with some of the given names may change the byte that is so far behind the start
of a place: any byte of a scalar or an enum, the count of an array, and what is in the slots of an
array that one of the names is for. -/
def WritesTo (names : List String) (address : String) : Layout → Nat → Prop
  | scalar _, _ | enum _, _ => True
  | array _ _ element, byte => (4 ≤ byte ∧ byte < headerSize) ∨
    ∃ name ∈ names, ∃ slot field, slotOf? address name = some (slot, field) ∧
      element.slotOffset slot ≤ byte ∧ byte < element.slotOffset slot + element.size
  | padding _, _ | record _ _, _ => False

/-- Writing entries with some of the given names may change the byte of a whole blob. -/
def MayChange (layout : Layout) (names : List String) (byte : Nat) : Prop :=
  ∃ place ∈ layout.places, place.Owns byte ∧
    WritesTo names place.name place.content (byte - place.offset)

/-- The second pass changes an array only in its count and in the slots that it takes entries for. -/
theorem getElem?_of_writeArrays_array {address name : String} {capacity : Nat} {element : Layout}
    {bytes out : Bytes} {entries left : Entries} {names : List String}
    (size : bytes.length = (array name capacity element).size)
    (written : writeArrays address (array name capacity element) bytes entries = .ok (out, left))
    (named : ∀ entry ∈ entries, entry.1 ∈ names) {byte : Nat}
    (inside : byte < (array name capacity element).size)
    (free : ¬WritesTo names address (array name capacity element) byte) :
    out[byte]? = bytes[byte]? := by
  rw [writeArrays_array, bind_eq_ok] at written
  obtain ⟨filled, folded, same⟩ := written
  cases same
  rw [WritesTo, not_or] at free
  have room : Slots.Holds capacity element bytes := Nat.le_of_eq size.symm
  obtain ⟨room', kept, -⟩ := slots_of_takenSlots room folded
  by_cases header : byte < headerSize
  · have front : byte < 4 := by
      have := free.1
      omega
    have counted : (Slots.recount capacity element filled).slice 0 4 = filled.slice 0 4 :=
      Slots.slice_writeWord_apart (by have := room'.header; omega) (Or.inl (by decide))
    have first := header_of_foldlM room folded
    rw [← Nat.zero_add byte, ← Bytes.getElem?_slice _ 0 front, counted,
      Bytes.getElem?_slice _ 0 front, ← Bytes.getElem?_slice _ 0 header, first,
      Bytes.getElem?_slice _ 0 header]
  · -- Behind the header the byte is in one of the slots, and no entry is for this slot.
    rw [size_array] at inside
    have positive : 0 < element.size := by
      by_contra none
      have empty : element.size = 0 := by omega
      rw [empty] at inside
      omega
    obtain ⟨slot, within, place⟩ : ∃ slot i, i < element.size ∧
        byte = element.slotOffset slot + i := by
      refine ⟨(byte - headerSize) / element.size, (byte - headerSize) % element.size,
        Nat.mod_lt _ positive, ?_⟩
      have split := Nat.div_add_mod' (byte - headerSize) element.size
      rw [slotOffset]
      omega
    obtain ⟨small, rfl⟩ := place
    have none : fieldsFor address slot entries = [] := by
      rw [List.eq_nil_iff_forall_not_mem]
      rintro ⟨field, value⟩ mem
      obtain ⟨key, held, taken⟩ := mem_fieldsFor.1 mem
      exact free.2 ⟨key, named _ held, slot, field, taken, by omega, by omega⟩
    have unchanged : Slots.slot element (Slots.recount capacity element filled) slot =
        Slots.slot element bytes slot := (Slots.slot_setCount room' _).trans (kept slot none)
    rw [← Bytes.getElem?_slice _ _ small, ← Bytes.getElem?_slice bytes _ small]
    exact congrArg (·[within]?) unchanged

section Frame

variable {owner : String} {flat : SortedMap String Value} {before after : Bytes}
  {names : List String}

mutual

/-- The two passes change no other byte of a place. -/
theorem getElem?_of_passes : ∀ {layout : Layout} {address : String} {offset : Nat}
    {leaves : Bytes} {entries left : Entries},
    (before.slice offset layout.size).length = layout.size →
      writeLeaves owner flat address layout (before.slice offset layout.size) = .ok leaves →
      writeArrays address layout leaves entries = .ok (after.slice offset layout.size, left) →
      (∀ entry ∈ entries, entry.1 ∈ names) →
        ∀ place ∈ placesAt address offset layout, ∀ byte, place.Owns byte →
          ¬WritesTo names place.name place.content (byte - place.offset) →
            after[byte]? = before[byte]?
  | scalar _, _, _, _, _, _, _, _, second, _ | enum _, _, _, _, _, _, _, _, second, _ => by
    cases second
    intro place mem byte _ free
    simp only [placesAt, List.mem_singleton] at mem
    subst mem
    exact absurd trivial free
  | padding kind, _, offset, _, _, _, _, first, second, _ => by
    cases first
    obtain ⟨same, rfl⟩ := Prod.mk.inj (Except.ok.inj second)
    intro place mem byte owns _
    simp only [placesAt, List.mem_singleton] at mem
    subst mem
    obtain ⟨i, inside, rfl⟩ := exists_of_owns owns
    rw [← Bytes.getElem?_slice after offset inside, ← Bytes.getElem?_slice before offset inside]
    exact congrArg (·[i]?) same.symm
  | array name capacity element, address, offset, _, _, _, size, first, second, named => by
    cases first
    intro place mem byte owns free
    simp only [placesAt, List.mem_singleton] at mem
    subst mem
    obtain ⟨i, inside, rfl⟩ := exists_of_owns owns
    rw [Nat.add_sub_cancel_left] at free
    rw [← Bytes.getElem?_slice after offset inside, ← Bytes.getElem?_slice before offset inside]
    exact getElem?_of_writeArrays_array size second named inside free
  | record _ _, _, _, _, _, _, size, first, second, named =>
    getElem?_of_fieldPasses size first second named

/-- Both passes over fields leave a byte outside of what is written as it was. -/
theorem getElem?_of_fieldPasses : ∀ {fields : List (String × Layout)} {address : String}
    {offset : Nat} {leaves : Bytes} {entries left : Entries},
    (before.slice offset (fieldsSize fields)).length = fieldsSize fields →
      writeLeafFields owner flat address fields (before.slice offset (fieldsSize fields)) =
        .ok leaves →
      writeArrayFields address fields leaves entries =
        .ok (after.slice offset (fieldsSize fields), left) →
      (∀ entry ∈ entries, entry.1 ∈ names) →
        ∀ place ∈ placeAccessors address offset fields, ∀ byte, place.Owns byte →
          ¬WritesTo names place.name place.content (byte - place.offset) →
            after[byte]? = before[byte]?
  | [], _, _, _, _, _, _, _, second, _ => by
    cases second
    exact fun _ mem => absurd mem List.not_mem_nil
  | (_, layout) :: rest, _, _, _, _, _, size, first, second, named => by
    obtain ⟨here, others, here₁, others₁, rfl⟩ := writeLeafFields_cons_eq_ok_iff.1 first
    obtain ⟨front, back⟩ := length_take_drop size
    have long := length_writeLeaves front here₁
    obtain ⟨here', between, others', here₂, others₂, both⟩ :=
      writeArrayFields_cons_eq_ok_iff.1 second
    rw [List.take_left' long] at here₂
    rw [List.drop_left' long] at others₂
    obtain ⟨at_here, at_others⟩ := Bytes.slice_eq_append both (length_writeArrays long here₂)
    rw [fieldsSize_cons, Bytes.take_slice] at front here₁
    rw [fieldsSize_cons, Bytes.drop_slice] at back others₁
    rw [← at_here] at here₂
    rw [← at_others] at others₂
    have fewer := left_subset_of_writeArrays here₂
    intro place mem
    rcases List.mem_append.1 mem with mem | mem
    · exact getElem?_of_passes front here₁ here₂ named place mem
    · exact getElem?_of_fieldPasses back others₁ others₂
        (fun entry mem => named entry (fewer mem)) place mem

end

end Frame

/-- Bytes that a tree may not change are as they were after it was written. -/
theorem getElem?_of_write {layout : Layout} {bytes out : Bytes} {flat : SortedMap String Value}
    (size : bytes.length = layout.size) (written : layout.write bytes flat = .ok out) {byte : Nat}
    (free : ¬layout.MayChange flat.keys byte) : out[byte]? = bytes[byte]? := by
  have full := length_write size written
  by_cases inside : byte < layout.size
  · obtain ⟨leaves, left, first, second, -⟩ := write_eq_ok_iff.1 written
    rw [← Bytes.slice_all size] at first
    rw [← Bytes.slice_all full] at second
    have named : ∀ entry ∈ layout.remaining flat, entry.1 ∈ flat.keys := fun entry mem =>
      List.mem_map_of_mem (List.mem_of_mem_filter mem)
    have kept := getElem?_of_passes (by rw [Bytes.slice_all size, size]) first second named
    have tiles := tiles_placesAt layout.rootAddress 0 layout
    obtain ⟨place, ⟨mem, owns⟩, -⟩ := tiles.existsUnique_owns (Nat.zero_le byte) (by omega)
    exact kept place mem byte owns fun writes => free ⟨place, mem, owns, writes⟩
  · rw [List.getElem?_eq_none (by omega), List.getElem?_eq_none (by omega)]

end Layout

/-! ### Whole blobs -/

namespace Blob

variable {blob other after : Blob} {tree : Value}

/-- Writing a tree succeeds exactly when its entries are written to the bytes of the blob. -/
theorem setTree_eq_ok_iff : blob.setTree tree = .ok after ↔
    ∃ out, blob.layout.write blob.region tree.flatten = .ok out ∧ after = blob.withRegion out := by
  rw [setTree, bind_eq_ok]
  exact exists_congr fun out => and_congr_right fun _ => pure_eq_ok.trans eq_comm

/-- **Setting a tree is a stable update.**  Whether a blob takes a tree, and with which error it
refuses it, is the same for all blobs of one layout.  A blob that has taken a tree does not change
when it takes it again, and of the blob before it keeps every byte that is not in a scalar or an
enum outside of arrays, in the count of an array, or in a slot that a name in the tree is for. -/
theorem setTree_stable (covers : blob.layout.size ≤ blob.bytes.length)
    (same : other.layout = blob.layout) :
    ((∃ after after', blob.setTree tree = .ok after ∧ other.setTree tree = .ok after') ∨
      ∃ e, blob.setTree tree = .error e ∧ other.setTree tree = .error e) ∧
    ∀ after, blob.setTree tree = .ok after →
      after.setTree tree = .ok after ∧ after.layout = blob.layout ∧
        after.bytes.length = blob.bytes.length ∧
        ∀ byte, ¬blob.layout.MayChange tree.flatten.keys byte →
          after.bytes[byte]? = blob.bytes[byte]? := by
  constructor
  · have outcome : SameOutcome (fun _ _ => True) (blob.setTree tree) (other.setTree tree) := by
      unfold setTree
      rw [same]
      exact (Layout.sameOutcome_write blob.layout blob.region other.region).bind
        fun _ _ _ => trivial
    rcases outcome.elim with ⟨after, after', taken, taken', -⟩ | refused
    · exact Or.inl ⟨after, after', taken, taken'⟩
    · exact Or.inr refused
  · intro after taken
    obtain ⟨out, written, rfl⟩ := setTree_eq_ok_iff.1 taken
    have size : blob.region.length = blob.layout.size := List.length_take_of_le covers
    have full := Layout.length_write size written
    have again : (blob.withRegion out).region = out := List.take_left' full
    have length : (blob.withRegion out).bytes.length = blob.bytes.length := by
      rw [withRegion, List.length_append, List.length_drop]
      omega
    refine ⟨setTree_eq_ok_iff.2 ⟨out, ?_, ?_⟩, rfl, length, fun byte free => ?_⟩
    · rw [again]
      exact Layout.write_again size written
    · rw [withRegion, withRegion, List.drop_left' full]
    · have kept := Layout.getElem?_of_write size written free
      by_cases inside : byte < blob.layout.size
      · rw [withRegion, List.getElem?_append_left (by omega), kept, region,
          List.getElem?_take_of_lt inside]
      · rw [withRegion, List.getElem?_append_right (by omega), List.getElem?_drop, full,
          Nat.add_sub_cancel' (Nat.not_lt.1 inside)]

end Blob

/-! ### A mark on a board that is in use -/

namespace Board

/-- One mark, for the first cell of a board. -/
def firstMark : Value := .map [("cells", .list [.map [("mark", .int 5)]])]

/-- A mark for the first cell does not touch the second one. -/
theorem not_mayChange_firstMark {byte : Nat} (second : 16 ≤ byte) :
    ¬boardLayout.MayChange firstMark.flatten.keys byte := by
  have keys : firstMark.flatten.keys = ["cells_0_mark"] := by decide +kernel
  have taken : Layout.slotOf? "cells" "cells_0_mark" = some (0, "mark") := by decide +kernel
  have places : boardLayout.places = [⟨"cells", 0, .array "Cells" 2 cellLayout⟩] := rfl
  rintro ⟨place, mem, -, writes⟩
  rw [places, List.mem_singleton] at mem
  subst mem
  rw [Nat.sub_zero] at writes
  rcases writes with ⟨-, header⟩ | ⟨name, named, slot, field, given, -, high⟩
  · have small : byte < 8 := header
    omega
  · rw [keys, List.mem_singleton] at named
    subst named
    cases taken.symm.trans given
    have last : cellLayout.slotOffset 0 + cellLayout.size = 16 := rfl
    omega

end Board

/-- A board on which only the second cell is taken gets a mark for the first cell: as often as the
mark is set, the second cell stays. -/
theorem Blob.setTree_stable_board :
    Board.gappy.layout.size ≤ Board.gappy.bytes.length ∧
      (allocate Board.boardLayout).layout = Board.gappy.layout ∧
      (∃ fresh, (allocate Board.boardLayout).setTree Board.firstMark = .ok fresh) ∧
      ∃ after, Board.gappy.setTree Board.firstMark = .ok after ∧
        after.setTree Board.firstMark = .ok after ∧
        ∀ byte, 16 ≤ byte → after.bytes[byte]? = Board.gappy.bytes[byte]? := by
  have covers : Board.gappy.layout.size ≤ Board.gappy.bytes.length := by decide +kernel
  have same : (allocate Board.boardLayout).layout = Board.gappy.layout := rfl
  obtain ⟨outcome, stable⟩ := @setTree_stable _ _ Board.firstMark covers same
  have accepted : (Board.gappy.setTree Board.firstMark).toOption.isSome = true := by
    decide +kernel
  rcases outcome with ⟨after, fresh, taken, taken'⟩ | ⟨e, refused, -⟩
  · obtain ⟨again, -, -, kept⟩ := stable after taken
    exact ⟨covers, same, ⟨fresh, taken'⟩, after, taken, again, fun byte second =>
      kept byte (Board.not_mayChange_firstMark second)⟩
  · rw [refused] at accepted
    cases accepted

end DeviceBlob
