import DeviceBlob.Proofs.Blob.Edit
import DeviceBlob.Proofs.Blob.Words
import DeviceBlob.Proofs.Tree.Flat
import DeviceBlob.Proofs.Tree.RoundTrip

/-!
# Writing back what was read

The flat form of an array lists its elements without their slots, and a list is written from the
first slot on.  So the flat form of a blob stands for the bytes that it was read from exactly if the
elements of each array are in its first slots (`Gapless`).  The first pass always finds what is
there already (`writeLeaves_eq_self`), and the second pass leaves an array as it is if and only if
there is no gap in it (`writeArrays_eq_self_iff`).  Main statement: `setTree_flatTree_iff`.
-/

namespace DeviceBlob

namespace Layout

/-! ### Arrays without gaps -/

mutual

/-- The elements of every array are in its first slots.  Nothing is asked of what is in an empty
slot. -/
def Gapless : Layout → Bytes → Prop
  | record _ fields, bytes => FieldsGapless fields bytes
  | array _ capacity element, bytes =>
    Slots.present capacity element bytes =
        List.range (Slots.present capacity element bytes).length ∧
      ∀ slot ∈ Slots.present capacity element bytes, Gapless element (Slots.slot element bytes slot)
  | _, _ => True

/-- The same for consecutive fields. -/
def FieldsGapless : List (String × Layout) → Bytes → Prop
  | [], _ => True
  | (_, layout) :: rest, bytes =>
    Gapless layout (bytes.take layout.size) ∧ FieldsGapless rest (bytes.drop layout.size)

end

/-! ### First pass -/

section FirstPass

variable {owner : String} {flat : SortedMap String Value} {whole : Bytes}

mutual

/-- The first pass leaves orderly bytes as they are if it finds what is read from them. -/
theorem writeLeaves_eq_self : ∀ {layout : Layout} {address : String} {offset : Nat},
    layout.Orderly (whole.slice offset layout.size) →
      (∀ part ∈ partsIn whole address offset layout, part.content.isArray = false →
        flat.get? part.name = some part.value) →
        writeLeaves owner flat address layout (whole.slice offset layout.size) =
          .ok (whole.slice offset layout.size)
  | scalar _, address, _, orderly, given =>
    writeLeaves_scalar_eq_ok_iff.2 ⟨_, given _ (List.mem_singleton.2 rfl) rfl, orderly address⟩
  | enum _, address, _, orderly, given =>
    writeLeaves_enum_eq_ok_iff.2 ⟨_, given _ (List.mem_singleton.2 rfl) rfl, orderly address⟩
  | padding _, _, _, _, _ | array _ _ _, _, _, _, _ => rfl
  | record _ _, _, _, orderly, given => writeLeafFields_eq_self orderly given

/-- So it is for the leaves of consecutive fields. -/
theorem writeLeafFields_eq_self : ∀ {fields : List (String × Layout)} {address : String}
    {offset : Nat}, FieldsOrderly fields (whole.slice offset (fieldsSize fields)) →
      (∀ part ∈ fieldPartsIn whole address offset fields, part.content.isArray = false →
        flat.get? part.name = some part.value) →
        writeLeafFields owner flat address fields (whole.slice offset (fieldsSize fields)) =
          .ok (whole.slice offset (fieldsSize fields))
  | [], _, _, _, _ => rfl
  | (name, layout) :: rest, address, offset, orderly, given => by
    rw [fieldPartsIn_cons] at given
    obtain ⟨here, others⟩ := orderly
    rw [fieldsSize_cons] at here others ⊢
    rw [Bytes.take_slice] at here
    rw [Bytes.drop_slice] at others
    have first := writeLeaves_eq_self here fun part mem => given part (List.mem_append_left _ mem)
    have second := writeLeafFields_eq_self others fun part mem =>
      given part (List.mem_append_right _ mem)
    refine writeLeafFields_cons_eq_ok_iff.2 ⟨_, _, ?_, ?_, Bytes.slice_add _ _ _ _⟩
    · rw [Bytes.take_slice]
      exact first
    · rw [Bytes.drop_slice]
      exact second

end

end FirstPass

/-! ### Second pass -/

/-- The index of an element stands in its flat form. -/
theorem index_flatTree {element : Layout} {content : Bytes} (starts : element.StartsWithIndex)
    (regular : element.Regular) (numbered : element.Numbered)
    (length : content.length = element.size) : ∃ n : Int64, n.toInt = Slots.readWord content 0 ∧
      (flatTree content element).flatten.get? DataType.indexField = some (.int n) := by
  have spread := regular.spread_flatTree element numbered content
  have room := starts.four_le_size
  have word : Slots.IsWord (Slots.readWord content 0) := Slots.isWord_readWord (by omega)
  refine ⟨.ofInt (Slots.readWord content 0), ?_, ?_⟩
  · obtain ⟨low, high⟩ := word
    exact Int64.toInt_ofInt_of_le (by omega) (by omega)
  · obtain ⟨name, rest, rfl⟩ := starts
    have part : partAt content ⟨DataType.indexField, 0, scalar .int32⟩ ∈
        partsIn content "" 0 (record name ((DataType.indexField, scalar .int32) :: rest)) :=
      List.mem_cons_self
    exact spread.get?_flatten regular.separate part rfl

/-- The flat form of an element says by itself which slot it is for. -/
theorem addressed_flatTree {element : Layout} {content : Bytes} (starts : element.StartsWithIndex)
    (regular : element.Regular) (numbered : element.Numbered)
    (length : content.length = element.size) (slot : Nat) :
    Addressed slot (flatTree content element) := by
  have spread := regular.spread_flatTree element numbered content
  obtain ⟨n, -, found⟩ := index_flatTree starts regular numbered length
  exact addressed_of_index (spread.functional regular.separate) found

/-- Items written from the first slot on are each written over what was in its slot. -/
theorem slots_of_foldlM_numbered {capacity : Nat} {element : Layout} {items : List Value}
    {bytes out : Bytes} (room : Slots.Holds capacity element bytes)
    (folded : (numbered 0 items).foldlM (writeSlot capacity element) bytes = .ok out) :
    Slots.Holds capacity element out ∧
      ∀ (i : Nat) (item : Value), items[i]? = some item → i < capacity ∧
        element.write (Slots.slot element bytes i) (withIndex i item.flatten) =
          .ok (Slots.slot element out i) := by
  have nodup : ((numbered 0 items).map (·.1)).Nodup := by
    rw [List.Nodup, List.pairwise_map]
    exact (sorted_numbered items 0).imp fun before => Nat.ne_of_lt before
  obtain ⟨room', -, each⟩ := slots_of_foldlM room nodup folded
  refine ⟨room', fun i item found => ?_⟩
  exact each (i, item.flatten) (mem_numbered.2 ⟨Nat.zero_le i, item, found, rfl⟩)

/-- What is asked of the elements of an array: those that stay the same when they are written back
are those without gaps. -/
structure Settled (element : Layout) : Prop where
  starts : element.StartsWithIndex
  regular : element.Regular
  numbered : element.Numbered
  writesBack : ∀ content, element.Orderly content →
    (element.write content (flatTree content element).flatten = .ok content ↔
      element.Gapless content)

section Array

variable {address name : String} {capacity : Nat} {element : Layout} {bytes : Bytes}
  {entries : Entries}

/-- An array is written item by item, in the order of the elements that were read. -/
theorem entries_takenSlots_flatItems (settled : element.Settled)
    (filled : Slots.Filled capacity element element.Orderly bytes)
    (serves : Serves entries address (flatItems capacity element bytes)) :
    (takenSlots address entries).entries = numbered 0 (flatItems capacity element bytes) := by
  refine entries_of_addressed serves fun slot item found => ?_
  rw [flatItems_eq settled.starts, List.getElem?_map, Option.map_eq_some_iff] at found
  obtain ⟨held, listed, rfl⟩ := found
  have inside := (Slots.mem_present_iff.1 (List.mem_of_getElem? listed)).1
  exact addressed_flatTree settled.starts settled.regular settled.numbered
    (Slots.length_slot filled.room inside) slot

/-- An array without gaps stays as it is when its elements are written back. -/
theorem writeArrays_array_eq_self (settled : element.Settled)
    (orderly : (array name capacity element).Orderly bytes)
    (gapless : (array name capacity element).Gapless bytes)
    (serves : Serves entries address (flatItems capacity element bytes)) :
    writeArrays address (array name capacity element) bytes entries =
      .ok (bytes, untaken address entries) := by
  obtain ⟨filled, counted⟩ := orderly
  obtain ⟨first, below⟩ := gapless
  have kept : ∀ entry ∈ numbered 0 (flatItems capacity element bytes),
      writeSlot capacity element bytes entry = .ok bytes := by
    rintro ⟨slot, flat⟩ mem
    obtain ⟨-, item, found, rfl⟩ := mem_numbered.1 mem
    rw [Nat.sub_zero, flatItems_eq settled.starts, List.getElem?_map,
      Option.map_eq_some_iff] at found
    obtain ⟨held, listed, rfl⟩ := found
    have here := List.mem_of_getElem? listed
    have inside := (Slots.mem_present_iff.1 here).1
    rw [first] at listed
    obtain ⟨few, rfl⟩ := List.getElem?_eq_some_iff.1 listed
    rw [List.getElem_range] at here inside ⊢
    have size := Slots.length_slot filled.room inside
    refine writeSlot_eq_ok_iff.2 ⟨inside, _, ?_, (Slots.setSlot_slot filled.room inside).symm⟩
    rw [(addressed_flatTree settled.starts settled.regular settled.numbered size slot).index]
    exact (settled.writesBack _ (filled.each slot inside)).2 (below slot here)
  rw [writeArrays_array, entries_takenSlots_flatItems settled filled serves, foldlM_eq_self kept,
    ok_bind, counted.recount_eq]
  rfl

/-- An array that stays as it is when its elements are written back has no gaps: the elements were
written into its first slots, so these hold elements, and there are no more. -/
theorem gapless_of_writeArrays_array {left : Entries} (settled : element.Settled)
    (orderly : (array name capacity element).Orderly bytes)
    (serves : Serves entries address (flatItems capacity element bytes))
    (same : writeArrays address (array name capacity element) bytes entries =
      .ok (bytes, left)) : (array name capacity element).Gapless bytes := by
  obtain ⟨filled, -⟩ := orderly
  rw [writeArrays_array, entries_takenSlots_flatItems settled filled serves, bind_eq_ok] at same
  obtain ⟨written, folded, counted⟩ := same
  obtain ⟨room, each⟩ := slots_of_foldlM_numbered filled.room folded
  have slots : ∀ i, Slots.slot element written i = Slots.slot element bytes i := by
    intro i
    rw [← (Prod.mk.inj (pure_eq_ok.1 counted)).1]
    exact (Slots.slot_setCount room _).symm
  have back : ∀ i p, (Slots.present capacity element bytes)[i]? = some p → i < capacity ∧
      element.write (Slots.slot element bytes i)
          (flatTree (Slots.slot element bytes p) element).flatten =
        .ok (Slots.slot element bytes i) := by
    intro i p listed
    have inside := (Slots.mem_present_iff.1 (List.mem_of_getElem? listed)).1
    have size := Slots.length_slot filled.room inside
    have addressed := addressed_flatTree settled.starts settled.regular settled.numbered size i
    obtain ⟨bound, put⟩ := each i (flatTree (Slots.slot element bytes p) element)
      (by rw [flatItems_eq settled.starts, List.getElem?_map, listed]; rfl)
    rw [addressed.index, slots] at put
    exact ⟨by omega, put⟩
  have first : Slots.present capacity element bytes =
      List.range (Slots.present capacity element bytes).length := by
    refine Slots.present_eq_range fun i few => ?_
    have listed := List.getElem?_eq_getElem few
    generalize (Slots.present capacity element bytes)[i] = p at listed
    obtain ⟨bound, put⟩ := back i p listed
    obtain ⟨inside, occupied⟩ := Slots.mem_present_iff.1 (List.mem_of_getElem? listed)
    obtain ⟨n, number, found⟩ := index_flatTree settled.starts settled.regular settled.numbered
      (Slots.length_slot filled.room inside)
    have size := Slots.length_slot filled.room bound
    have index := readWord_of_write settled.starts size put found rfl
    rw [Slots.isOccupied, index, number]
    exact occupied
  refine ⟨first, fun slot mem => ?_⟩
  have few : slot < (Slots.present capacity element bytes).length := by
    rw [first] at mem
    exact List.mem_range.1 mem
  obtain ⟨inside, put⟩ := back slot slot (by rw [first, List.getElem?_range few])
  exact (settled.writesBack _ (filled.each slot inside)).1 put

end Array

variable {whole : Bytes}

mutual

/-- The second pass leaves the entries that none of the arrays takes. -/
theorem left_of_writeArrays : ∀ {layout : Layout} {address : String} {offset : Nat}
    {bytes out : Bytes} {entries left : Entries},
      writeArrays address layout bytes entries = .ok (out, left) →
        left = leftBy (partsIn whole address offset layout) entries
  | scalar _, _, _, _, _, _, _, h | enum _, _, _, _, _, _, _, h => by
    cases h
    simp [leftBy, partsIn, placesAt, partAt, isArray, isPadding]
  | padding _, _, _, _, _, _, _, h => by
    cases h
    simp [leftBy, partsIn, placesAt, isPadding]
  | array _ _ _, _, _, _, _, _, _, h => by
    rw [writeArrays_array, bind_eq_ok] at h
    obtain ⟨_, -, same⟩ := h
    cases same
    simp [leftBy, partsIn, placesAt, partAt, isArray, isPadding, untaken]
  | record _ _, _, _, _, _, _, _, h => left_of_writeArrayFields h

/-- So it is for the arrays of consecutive fields. -/
theorem left_of_writeArrayFields : ∀ {fields : List (String × Layout)} {address : String}
    {offset : Nat} {bytes out : Bytes} {entries left : Entries},
      writeArrayFields address fields bytes entries = .ok (out, left) →
        left = leftBy (fieldPartsIn whole address offset fields) entries
  | [], _, _, _, _, _, _, h => by
    cases h
    simp [leftBy, fieldPartsIn]
  | (name, layout) :: rest, address, offset, _, _, entries, _, h => by
    obtain ⟨_, between, _, first, second, -⟩ := writeArrayFields_cons_eq_ok_iff.1 h
    rw [fieldPartsIn_cons, leftBy_append, ← left_of_writeArrays first]
    exact left_of_writeArrayFields second

end

mutual

/-- The second pass leaves orderly bytes as they are exactly if they have no gaps, where it finds
what is read from them. -/
theorem writeArrays_eq_self_iff : ∀ {layout : Layout} {address : String} {offset : Nat}
    {entries : Entries}, layout.Orderly (whole.slice offset layout.size) →
      (∀ place ∈ placesAt address offset layout, ∀ name capacity element,
        place.content = array name capacity element → element.Settled) →
      (∀ part ∈ partsIn whole address offset layout, part.Served entries) →
      Apart (partsIn whole address offset layout) →
        ((∃ left, writeArrays address layout (whole.slice offset layout.size) entries =
            .ok (whole.slice offset layout.size, left)) ↔
          layout.Gapless (whole.slice offset layout.size))
  | scalar _, _, _, _, _, _, _, _ | enum _, _, _, _, _, _, _, _ | padding _, _, _, _, _, _, _, _ =>
    ⟨fun _ => trivial, fun _ => ⟨_, rfl⟩⟩
  | array name capacity element, address, offset, entries, orderly, settled, served, _ => by
    have below := settled _ (List.mem_singleton.2 rfl) name capacity element rfl
    have serves : Serves entries address (flatItems capacity element
        (whole.slice offset (array name capacity element).size)) :=
      served _ (List.mem_singleton.2 rfl) _ rfl rfl
    constructor
    · rintro ⟨left, same⟩
      exact gapless_of_writeArrays_array below orderly serves same
    · intro gapless
      exact ⟨_, writeArrays_array_eq_self below orderly gapless serves⟩
  | record _ _, _, _, _, orderly, settled, served, apart =>
    writeArrayFields_eq_self_iff orderly settled served apart

/-- So it is for the arrays of consecutive fields. -/
theorem writeArrayFields_eq_self_iff : ∀ {fields : List (String × Layout)} {address : String}
    {offset : Nat} {entries : Entries},
      FieldsOrderly fields (whole.slice offset (fieldsSize fields)) →
      (∀ place ∈ placeAccessors address offset fields, ∀ name capacity element,
        place.content = array name capacity element → element.Settled) →
      (∀ part ∈ fieldPartsIn whole address offset fields, part.Served entries) →
      Apart (fieldPartsIn whole address offset fields) →
        ((∃ left, writeArrayFields address fields (whole.slice offset (fieldsSize fields)) entries =
            .ok (whole.slice offset (fieldsSize fields), left)) ↔
          FieldsGapless fields (whole.slice offset (fieldsSize fields)))
  | [], _, _, _, _, _, _, _ => ⟨fun _ => trivial, fun _ => ⟨_, rfl⟩⟩
  | (name, layout) :: rest, address, offset, entries, orderly, settled, served, apart => by
    rw [fieldPartsIn_cons] at served apart
    obtain ⟨apartHere, apartRest, -⟩ := List.pairwise_append.1 apart
    rw [FieldsOrderly, fieldsSize_cons, Bytes.take_slice, Bytes.drop_slice] at orderly
    have first := @writeArrays_eq_self_iff layout (Name.join address name) offset entries orderly.1
      (fun place mem => settled place (List.mem_append_left _ mem))
      (fun part mem => served part (List.mem_append_left _ mem)) apartHere
    have second := writeArrayFields_eq_self_iff orderly.2
      (fun place mem => settled place (List.mem_append_right _ mem))
      (apart.served served) apartRest
    rw [FieldsGapless, fieldsSize_cons, Bytes.take_slice, Bytes.drop_slice, ← first, ← second]
    simp only [writeArrayFields_cons_eq_ok_iff, Bytes.take_slice, Bytes.drop_slice]
    constructor
    · rintro ⟨left, here, between, others, same, same', both⟩
      have kept := @left_of_writeArrays whole _ _ offset _ _ _ _ same
      obtain ⟨front, back⟩ := Bytes.slice_eq_append both
        (length_writeArrays orderly.1.length same)
      rw [← front] at same
      rw [← back, kept] at same'
      exact ⟨⟨_, same⟩, left, same'⟩
    · rintro ⟨⟨between, same⟩, left, same'⟩
      have kept := @left_of_writeArrays whole _ _ offset _ _ _ _ same
      rw [← kept] at same'
      exact ⟨left, _, between, _, same, same', Bytes.slice_add _ _ _ _⟩

end

/-! ### Whole layouts -/

/-- Writing back what was read from orderly bytes leaves them as they are exactly if they have no
gaps. -/
theorem write_flatTree_iff (layout : Layout) : layout.Regular → layout.Numbered →
    ∀ bytes, layout.Orderly bytes →
      (layout.write bytes (flatTree bytes layout).flatten = .ok bytes ↔ layout.Gapless bytes) := by
  -- Level by level: the second pass needs the theorem for the elements of the arrays.
  induction layout using induction_on_elements with
  | step layout ih =>
    intro regular numbered bytes orderly
    have separate := regular.separate
    have spread := regular.spread_flatTree layout numbered bytes
    have settled : ∀ place ∈ layout.places, ∀ name capacity element,
        place.content = array name capacity element → element.Settled := by
      intro place mem name capacity element same
      obtain ⟨regular', starts⟩ := regular.element mem same
      obtain ⟨-, numbered'⟩ := numbered.array mem same
      exact ⟨starts, regular', numbered',
        ih place mem name capacity element same regular' numbered'⟩
    have all : bytes.slice 0 layout.size = bytes := Bytes.slice_all orderly.length
    have first := @writeLeaves_eq_self layout.typeName (flatTree bytes layout).flatten bytes layout
      layout.rootAddress 0 (all.symm ▸ orderly) fun part mem => spread.get?_flatten separate mem
    have second := @writeArrays_eq_self_iff bytes layout layout.rootAddress 0 _
      (all.symm ▸ orderly) settled (spread.served separate) (spread.apart separate)
    rw [all] at first second
    rw [← second, write_eq_ok_iff]
    constructor
    · rintro ⟨leaves, left, filled, same, -⟩
      cases first.symm.trans filled
      exact ⟨left, same⟩
    · rintro ⟨left, same⟩
      refine ⟨_, left, first, same, ?_⟩
      rw [@left_of_writeArrays bytes _ _ 0 _ _ _ _ same]
      exact spread.leftBy_remaining separate

end Layout

namespace Blob

open Layout

variable {compiler : Compiler} {type : DataType} {params : Params} {blob : Blob}

end Blob

namespace Board

/-- A cell with a mark. -/
def cellType : DataType := .record "Cell" [("index", .scalar .int32), ("mark", .scalar .int32)]

/-- A board of cells. -/
def boardType : DataType := .record "Board" [("cells", .array "Cells" cellType)]

/-- A board with a field that has the name of a mark. -/
def clashType : DataType :=
  .record "Board" [("cells", .array "Cells" cellType), ("cells_0_mark", .scalar .int32)]

/-- Room for two cells. -/
def params : Params := .ofList [("cells_capacity", 2)]

/-- A cell in bytes. -/
def cellLayout : Layout := .record "Cell" [("index", .scalar .int32), ("mark", .scalar .int32)]

/-- A board in bytes. -/
def boardLayout : Layout := .record "Board" [("cells", .array "Cells" 2 cellLayout)]

/-- A board with a field that has the name of a mark, in bytes. -/
def clashLayout : Layout :=
  .record "Board" [("cells", .array "Cells" 2 cellLayout), ("cells_0_mark", .scalar .int32)]

/-- A board of which the first cell was claimed. -/
def claimed (layout : Layout) : Blob :=
  (Blob.allocate layout).edit (.array [.array "cells"] .nextSlot)

/-- A board of which both cells were claimed and the first was removed. -/
def gappy : Blob :=
  ((claimed boardLayout).edit (.array [.array "cells"] .nextSlot)).edit
    (.array [.array "cells"] (.remove 0))

/-- The numbers of the cells of a board. -/
def cells? (blob : Blob) : Option (List Nat) :=
  (blob.viewAt [.array "cells"]).toOption.map fun view =>
    Slots.present 2 cellLayout view.bytes

/-- Cells can be built. -/
theorem buildable_cellType : cellType.Buildable := by
  have built : DataType.ofFields "Cell" [("index", .scalar .int32), ("mark", .scalar .int32)] =
      .ok cellType := rfl
  refine .record ?_ built
  simp [DataType.Buildable.scalar]

/-- So can arrays of them. -/
theorem buildable_cells : (DataType.array "Cells" cellType).Buildable := by
  have built : DataType.ofElement "Cells" cellType = .ok (.array "Cells" cellType) := rfl
  exact .array buildable_cellType built

/-- So can a board. -/
theorem buildable_boardType : boardType.Buildable := by
  have built : DataType.ofFields "Board" [("cells", .array "Cells" cellType)] =
      .ok boardType := rfl
  refine .record ?_ built
  simp [buildable_cells]

/-- So can a board with a field that has the name of a mark. -/
theorem buildable_clashType : clashType.Buildable := by
  have built : DataType.ofFields "Board" [("cells", .array "Cells" cellType),
      ("cells_0_mark", .scalar .int32)] = .ok clashType := rfl
  refine .record ?_ built
  simp [DataType.Buildable.scalar, buildable_cells]

/-- No name on a board looks like a slot. -/
theorem unambiguous_boardLayout : boardLayout.Unambiguous :=
  Layout.unambiguous_of_prefix (by decide)

/-- A board on which slots were claimed is one that was written. -/
theorem written_claimed {type : DataType} {layout : Layout}
    (compiled : (Compiler.mk .aligned 5000).layout type params = .ok layout) :
    Blob.Written (Compiler.mk .aligned 5000) type params (claimed layout) :=
  .edit (.allocate compiled) (.array [.array "cells"] .nextSlot) trivial

/-- So is a board with a gap. -/
theorem written_gappy : Blob.Written (Compiler.mk .aligned 5000) boardType params gappy :=
  .edit (.edit (written_claimed rfl) (.array [.array "cells"] .nextSlot) trivial)
    (.array [.array "cells"] (.remove 0)) trivial

/-- There is no gap where slots were claimed one after the other. -/
theorem gapless_claimed : clashLayout.Gapless (claimed clashLayout).bytes := by
  refine ⟨⟨by decide, ?_⟩, trivial, trivial⟩
  intro slot _
  exact ⟨trivial, trivial, trivial⟩

end Board

end DeviceBlob
