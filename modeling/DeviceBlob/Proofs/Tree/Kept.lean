import DeviceBlob.Proofs.Tree.Occupancy

/-!
# What becomes of the leaves of a tree

The name of a leaf says which place of a blob the leaf is for (`Names`), and where no field has the
name of a slot it says so for one place only (`Names.unique`).  Every leaf of a tree that is
accepted is for some place, and the bytes there are those of a leaf that is for this place
(`stored_of_write`).  But several leaves may be for one place, and then only one of them is kept:
two keys of a map may be one name in snake case, and a slot may be numbered with leading zeros.
Main statement: `Blob.keepsAll_of_ofTree_iff`.
-/

namespace DeviceBlob

namespace Layout

/-! ### The places that names lead to -/

/-- The name leads to a scalar, an enum or padding, which may be in a slot of an array.  The name of
the place is the one that it has in its element. -/
inductive Names : Layout → String → Field → Prop where
  /-- What is in no array has its own name. -/
  | here {layout : Layout} {place : Field} {key : String} (mem : place ∈ layout.places)
      (plain : place.content.isArray = false) (same : place.name = key) : Names layout key place
  /-- What is in an element is named after the array and the slot. -/
  | inSlot {layout : Layout} {place : Field} {name key field : String} {capacity slot : Nat}
      {element : Layout} {inner : Field} (mem : place ∈ layout.places)
      (content : place.content = array name capacity element)
      (taken : slotOf? place.name key = some (slot, field)) (inside : slot < capacity)
      (below : Names element field inner) :
      Names layout key
        ⟨inner.name, place.offset + element.slotOffset slot + inner.offset, inner.content⟩

namespace Names

variable {layout : Layout} {key : String} {place other : Field}

/-- The places that names lead to lie in the layout. -/
theorem bounds (names : Names layout key place) :
    place.offset + place.content.size ≤ layout.size := by
  induction names with
  | here mem plain same =>
    have inside := (bounds_of_mem_placesAt mem).2
    omega
  | @inSlot layout place name key field capacity slot element inner mem content taken inside below
      ih =>
    have outer := (bounds_of_mem_placesAt mem).2
    rw [content] at outer
    have slots : element.slotOffset slot + element.size ≤ (array name capacity element).size :=
      Slots.slotOffset_add_le inside
    show place.offset + element.slotOffset slot + inner.offset + inner.content.size ≤ layout.size
    omega

/-- Where slots cannot be taken for other places, a name leads to one place. -/
theorem unique (names : Names layout key place) (formed : layout.WellFormed)
    (unambiguous : layout.Unambiguous) (again : Names layout key other) : place = other := by
  induction names generalizing other with
  | @here layout place key mem plain same =>
    have separate := unambiguous.separate formed
    cases again with
    | here mem' plain' same' =>
      exact List.inj_on_of_nodup_map separate.names mem mem' (same.trans same'.symm)
    | inSlot mem' content taken inside below =>
      have free := separate.plain _ mem' (by rw [content]; rfl) _ mem plain
      rw [same, taken] at free
      cases free
  | @inSlot layout place name key field capacity slot element inner mem content taken inside below
      ih =>
    have separate := unambiguous.separate formed
    have isArray : place.content.isArray = true := by rw [content]; rfl
    cases again with
    | here mem' plain same =>
      have free := separate.plain _ mem isArray _ mem' plain
      rw [same, taken] at free
      cases free
    | @inSlot _ place' _ _ _ _ _ element' inner' mem' content' taken' inside' below' =>
      have isArray' : place'.content.isArray = true := by rw [content']; rfl
      by_cases one : place.name = place'.name
      · obtain rfl := List.inj_on_of_nodup_map separate.names mem mem' one
        cases content.symm.trans content'
        cases taken.symm.trans taken'
        have starts := (element_of_mem_placesAt content mem).1 formed
        rw [ih starts.2 (unambiguous.element mem content) below']
      · have free := separate.arrays _ mem isArray _ mem' isArray' one _ _ taken
        rw [taken'] at free
        cases free

/-- Only the name of the index leads to the index. -/
theorem eq_index {content : Layout} (names : Names layout key ⟨DataType.indexField, 0, content⟩) :
    key = DataType.indexField := by
  generalize index : (⟨DataType.indexField, 0, content⟩ : Field) = place at names
  cases names with
  | here mem plain same => rw [← same, ← index]
  | inSlot mem content taken inside below =>
    have start := congrArg Field.offset index
    simp only [slotOffset, headerSize] at start
    omega

end Names

/-! ### What the second pass makes of the entries -/

/-- The array at a place was written from the entries that it takes. -/
def TakesFrom (bytes : Bytes) (entries : Entries) (place : Field) : Prop :=
  ∃ name capacity element, place.content = array name capacity element ∧
    ∀ slot, fieldsFor place.name slot entries ≠ [] → slot < capacity ∧
      ∃ before : Bytes, before.length = element.size ∧
        element.write before
          (withIndex slot (SortedMap.ofList (fieldsFor place.name slot entries))) =
            .ok (bytes.slice (place.offset + element.slotOffset slot) element.size)

mutual

/-- The second pass leaves an entry or gives it to an array that takes it. -/
theorem takesFrom_of_writeArrays {after : Bytes} : ∀ {layout : Layout} {address : String}
    {offset : Nat} {bytes : Bytes} {entries left : Entries}, bytes.length = layout.size →
      writeArrays address layout bytes entries = .ok (after.slice offset layout.size, left) →
        ∀ entry ∈ entries, entry ∈ left ∨
          ∃ place ∈ placesAt address offset layout, ∃ given ⊆ entries, entry ∈ given ∧
            (∃ taken, slotOf? place.name entry.1 = some taken) ∧ TakesFrom after given place
  | scalar _, _, _, _, _, _, _, h | enum _, _, _, _, _, _, _, h | padding _, _, _, _, _, _, _, h => by
    simp only [writeArrays, Except.ok.injEq, Prod.mk.injEq] at h
    rw [← h.2]
    exact fun entry mem => Or.inl mem
  | array name capacity element, address, offset, bytes, entries, left, size, h => by
    rw [writeArrays_array, bind_eq_ok] at h
    obtain ⟨filled, folded, counted⟩ := h
    obtain ⟨same, rfl⟩ := Prod.mk.inj (pure_eq_ok.1 counted)
    have room : Slots.Holds capacity element bytes := Nat.le_of_eq size.symm
    obtain ⟨room', -, each⟩ := slots_of_takenSlots room folded
    intro entry mem
    cases taken : slotOf? address entry.1 with
    | none => exact Or.inl (List.mem_filter.2 ⟨mem, by simp [taken]⟩)
    | some found =>
      refine Or.inr ⟨_, List.mem_singleton.2 rfl, entries, List.Subset.refl _, mem, ⟨_, taken⟩,
        name, capacity, element, rfl, fun slot some => ?_⟩
      obtain ⟨inside, put⟩ := each slot some
      have within : element.slotOffset slot + element.size ≤ (array name capacity element).size :=
        Slots.slotOffset_add_le inside
      have found : Slots.slot element filled slot =
          after.slice (offset + element.slotOffset slot) element.size := by
        rw [← Bytes.slice_slice within, ← same, Slots.recount]
        exact (Slots.slot_setCount room' _).symm
      rw [found] at put
      exact ⟨inside, _, Slots.length_slot room inside, put⟩
  | record _ _, _, _, _, _, _, size, h => takesFrom_of_writeArrayFields size h

/-- So it is for the arrays of consecutive fields. -/
theorem takesFrom_of_writeArrayFields {after : Bytes} : ∀ {fields : List (String × Layout)}
    {address : String} {offset : Nat} {bytes : Bytes} {entries left : Entries},
      bytes.length = fieldsSize fields →
      writeArrayFields address fields bytes entries =
        .ok (after.slice offset (fieldsSize fields), left) →
        ∀ entry ∈ entries, entry ∈ left ∨
          ∃ place ∈ placeAccessors address offset fields, ∃ given ⊆ entries, entry ∈ given ∧
            (∃ taken, slotOf? place.name entry.1 = some taken) ∧ TakesFrom after given place
  | [], _, _, _, _, _, _, h => by
    simp only [writeArrayFields, Except.ok.injEq, Prod.mk.injEq] at h
    rw [← h.2]
    exact fun entry mem => Or.inl mem
  | (_, layout) :: rest, _, _, _, _, _, size, h => by
    obtain ⟨here, between, others, first, second, both⟩ := writeArrayFields_cons_eq_ok_iff.1 h
    obtain ⟨front, back⟩ := length_take_drop size
    obtain ⟨at_here, at_others⟩ := Bytes.slice_eq_append both (length_writeArrays front first)
    rw [← at_here] at first
    rw [← at_others] at second
    have fewer := left_subset_of_writeArrays first
    have one := takesFrom_of_writeArrays front first
    have other := takesFrom_of_writeArrayFields back second
    intro entry mem
    rcases one entry mem with kept | ⟨place, held, taken⟩
    · rcases other entry kept with kept | ⟨place, held, given, among, taken⟩
      · exact Or.inl kept
      · exact Or.inr ⟨place, List.mem_append_right _ held, given, List.Subset.trans among fewer,
          taken⟩
    · exact Or.inr ⟨place, List.mem_append_left _ held, taken⟩

end

/-! ### The leaves that are kept -/

/-- The bytes have a value at a place. -/
def Stores (bytes : Bytes) (place : Field) (value : Value) : Prop :=
  Blob.encoded place.content place.name value =
    .ok (some (bytes.slice place.offset place.content.size))

/-- What is stored in a slot is stored in the array. -/
theorem stores_inSlot {element : Layout} {bytes : Bytes} {start : Nat} {inner : Field}
    {value : Value} (inside : inner.offset + inner.content.size ≤ element.size)
    (stores : Stores (bytes.slice start element.size) inner value) :
    Stores bytes ⟨inner.name, start + inner.offset, inner.content⟩ value := by
  rw [Stores, Bytes.slice_slice inside] at stores
  exact stores

/-- The entries for an element are those for its slot, and its number if they give no index. -/
theorem mem_withIndex {slot : Nat} {flat : SortedMap String Value} {entry : String × Value} :
    entry ∈ (withIndex slot flat).entries ↔ entry ∈ flat.entries ∨
      flat.get? DataType.indexField = none ∧ entry = (DataType.indexField, .int (.ofNat slot)) := by
  obtain ⟨key, value⟩ := entry
  rw [← SortedMap.get?_eq_some_iff, ← SortedMap.get?_eq_some_iff]
  unfold withIndex SortedMap.contains
  cases found : flat.get? DataType.indexField with
  | some index => simp
  | none =>
    by_cases same : key = DataType.indexField
    · subst same
      simp [SortedMap.get?_insert, found, eq_comm]
    · simp [SortedMap.get?_insert, same]

/-- The index that an element is given by default is kept for no other entry. -/
theorem stored_of_withIndex {element : Layout} (starts : element.StartsWithIndex)
    (formed : element.WellFormed) (unambiguous : element.Unambiguous) {slot : Nat}
    {fields : List (String × Value)} {content : Bytes}
    (each : ∀ entry ∈ (withIndex slot (SortedMap.ofList fields)).entries,
      ∃ place, Names element entry.1 place ∧ (place.content.isPadding = true ∨
        ∃ kept ∈ (withIndex slot (SortedMap.ofList fields)).entries,
          Names element kept.1 place ∧ Stores content place kept.2)) :
    ∀ entry ∈ fields, ∃ place, Names element entry.1 place ∧ (place.content.isPadding = true ∨
      ∃ kept ∈ fields, Names element kept.1 place ∧ Stores content place kept.2) := by
  rintro ⟨field, value⟩ mem
  obtain ⟨held, found⟩ := SortedMap.exists_get?_ofList mem
  have among := SortedMap.get?_eq_some_iff.1 found
  obtain ⟨place, names, padded | ⟨kept, given, names', stored⟩⟩ :=
    each _ (mem_withIndex.2 (Or.inl among))
  · exact ⟨place, names, Or.inl padded⟩
  · rcases mem_withIndex.1 given with given | ⟨none, rfl⟩
    · refine ⟨place, names, Or.inr ⟨kept, ?_, names', stored⟩⟩
      exact SortedMap.mem_of_get?_ofList (SortedMap.get?_eq_some_iff.2 given)
    · obtain ⟨name, rest, rfl⟩ := starts
      have first : (⟨DataType.indexField, 0, .scalar .int32⟩ : Field) ∈
          (record name ((DataType.indexField, .scalar .int32) :: rest)).places := by
        simp [places, placesAt, placeAccessors, rootAddress]
      obtain rfl := names'.unique formed unambiguous (.here first rfl rfl)
      cases names.eq_index
      cases none.symm.trans found

/-- After a tree was written, each of its entries is for a place, and the bytes there are those of
an entry that is for this place. -/
theorem stored_of_write (layout : Layout) : layout.WellFormed → layout.Unambiguous →
    ∀ {bytes out : Bytes} {flat : SortedMap String Value}, bytes.length = layout.size →
      layout.write bytes flat = .ok out → ∀ entry ∈ flat.entries,
        ∃ place, Names layout entry.1 place ∧ (place.content.isPadding = true ∨
          ∃ kept ∈ flat.entries, Names layout kept.1 place ∧ Stores out place kept.2) := by
  -- Level by level: what is in a slot was written as the element is.
  induction layout using induction_on_elements with
  | step layout ih =>
    intro formed unambiguous bytes out flat size written entry mem
    by_cases leaf : entry.1 ∈ layout.leafNames
    · obtain ⟨place, held, plain, same⟩ := mem_leafNames.1 leaf
      refine ⟨place, .here held plain same, ?_⟩
      cases valued : place.content.isPadding with
      | true => exact Or.inl rfl
      | false =>
        obtain ⟨value, found, stored⟩ := encoded_of_write size written held plain valued
        exact Or.inr ⟨(place.name, value), SortedMap.get?_eq_some_iff.1 found,
          .here held plain rfl, stored⟩
    · obtain ⟨leaves, left, first, second, rfl⟩ := write_eq_ok_iff.1 written
      have filled := length_writeLeaves size first
      have full := length_writeArrays filled second
      rw [← Bytes.slice_all full] at second
      have each := takesFrom_of_writeArrays filled second
      rcases each entry (mem_remaining.2 ⟨mem, leaf⟩) with kept | ⟨place, held, given, among, among',
        ⟨⟨slot, field⟩, taken⟩, name, capacity, element, content, slots⟩
      · exact absurd kept List.not_mem_nil
      · obtain ⟨starts, formed'⟩ := (element_of_mem_placesAt content held).1 formed
        have unambiguous' := unambiguous.element held content
        have mine : (field, entry.2) ∈ fieldsFor place.name slot given :=
          mem_fieldsFor.2 ⟨entry.1, among', taken⟩
        obtain ⟨inside, before, size', put⟩ := slots slot (List.ne_nil_of_mem mine)
        have below := ih place held name capacity element content formed' unambiguous' size' put
        obtain ⟨inner, names, padded | ⟨⟨field', value⟩, kept, names', stored⟩⟩ :=
          stored_of_withIndex starts formed' unambiguous' below _ mine
        · exact ⟨_, .inSlot held content taken inside names, Or.inl padded⟩
        · obtain ⟨key, among'', taken'⟩ := mem_fieldsFor.1 kept
          refine ⟨_, .inSlot held content taken inside names, Or.inr ⟨(key, value), ?_,
            .inSlot held content taken' inside names', stores_inSlot names.bounds stored⟩⟩
          exact (mem_remaining.1 (among among'')).1

/-- Two entries have the same bytes at each place that both are for. -/
def Agree (layout : Layout) (a b : String × Value) : Prop :=
  ∀ place, Names layout a.1 place → Names layout b.1 place → place.content.isPadding = false →
    Blob.encoded place.content place.name a.2 = Blob.encoded place.content place.name b.2

end Layout

/-! ### Blobs made of trees -/

namespace Blob

open Layout

/-- The blob has the value of an entry at a place that the entry is for.  What is for padding has
nowhere to be stored. -/
def Keeps (blob : Blob) (entry : String × Value) : Prop :=
  ∃ place, blob.layout.Names entry.1 place ∧
    (place.content.isPadding = true ∨ Stores blob.bytes place entry.2)

/-- What is for one place only is kept if it is stored there. -/
theorem keeps_iff {blob : Blob} {entry : String × Value} {place : Field}
    (formed : blob.layout.WellFormed) (unambiguous : blob.layout.Unambiguous)
    (names : blob.layout.Names entry.1 place) (valued : place.content.isPadding = false) :
    blob.Keeps entry ↔ Stores blob.bytes place entry.2 := by
  constructor
  · rintro ⟨other, names', kept⟩
    obtain rfl := names'.unique formed unambiguous names
    rcases kept with padded | stores
    · rw [valued] at padded
      cases padded
    · exact stores
  · intro stores
    exact ⟨place, names, Or.inr stores⟩

/-- **Which leaves are kept** by a blob that was made of a tree, where no field has the name of a
slot: each leaf is for one place, and the blob keeps all leaves, with no two of one name, exactly if
no two leaves have one name and those that are for one place agree there. -/
theorem keepsAll_of_ofTree_iff {compiler : Compiler} {type : DataType} {params : Params}
    {tree : Value} {blob : Blob} (buildable : type.Buildable)
    (made : ofTree compiler type tree params = .ok blob) (unambiguous : blob.layout.Unambiguous) :
    (∀ leaf ∈ tree.leaves, ∃! place, blob.layout.Names leaf.1 place) ∧
      ((tree.leaves.map (·.1)).Nodup ∧ (∀ leaf ∈ tree.leaves, blob.Keeps leaf) ↔
        (tree.leaves.map (·.1)).Nodup ∧
          ∀ a ∈ tree.leaves, ∀ b ∈ tree.leaves, Agree blob.layout a b) := by
  simp only [ofTree, bind_eq_ok, pure_eq_ok] at made
  obtain ⟨layout, compiled, bytes, written, rfl⟩ := made
  have formed := wellFormed_of_layout buildable compiled
  have stored : ∀ leaf ∈ tree.leaves, ∃ place, layout.Names leaf.1 place ∧
      (place.content.isPadding = true ∨
        ∃ kept ∈ tree.leaves, layout.Names kept.1 place ∧ Stores bytes place kept.2) := by
    rintro ⟨name, value⟩ mem
    obtain ⟨held, found⟩ := SortedMap.exists_get?_ofList mem
    obtain ⟨place, names, padded | ⟨⟨name', value'⟩, among, names', stored⟩⟩ :=
      stored_of_write layout formed unambiguous (length_blank formed) written _
        (SortedMap.get?_eq_some_iff.1 found)
    · exact ⟨place, names, Or.inl padded⟩
    · have given := SortedMap.mem_of_get?_ofList (SortedMap.get?_eq_some_iff.2 among)
      exact ⟨place, names, Or.inr ⟨_, given, names', stored⟩⟩
  refine ⟨?_, and_congr_right fun _ => ?_⟩
  · intro leaf mem
    obtain ⟨place, names, -⟩ := stored leaf mem
    exact ⟨place, names, fun other again => again.unique formed unambiguous names⟩
  constructor
  · intro keeps a first b second place names names' valued
    have here := (keeps_iff formed unambiguous names valued).1 (keeps a first)
    have there := (keeps_iff formed unambiguous names' valued).1 (keeps b second)
    exact here.trans there.symm
  · intro agree leaf mem
    obtain ⟨place, names, padded | ⟨kept, among, names', stores⟩⟩ := stored leaf mem
    · exact ⟨place, names, Or.inl padded⟩
    · refine ⟨place, names, ?_⟩
      cases valued : place.content.isPadding with
      | true => exact Or.inl rfl
      | false => exact Or.inr ((agree leaf mem kept among place names names' valued).trans stores)

end Blob

/-! ### Cells that are kept, and cells that are not -/

namespace Board

/-- A list of one cell without a mark. -/
def unmarkedCells : Value := .list [.map [("index", .int 0), ("mark", .int 0)]]

/-- A cell that has its mark twice, in two spellings. -/
def twiceMarked : Value := .map [("Mark", .int 1), ("index", .int 0), ("mark", .int 2)]

/-- Two marks for the first cell, of which one has a slot number with a leading zero. -/
def paddedCells : Value := .map [("00_mark", .int 2), ("0_mark", .int 1)]

/-- A board with one cell. -/
def markedBoard : Value := .map [("cells", .list [.map [("mark", .int 5)]])]

/-- This is how a cell is laid out. -/
theorem layout_cellType : (Compiler.mk .aligned 5000).layout cellType ∅ = .ok cellLayout := rfl

/-- This is how two cells are laid out. -/
theorem layout_cells :
    (Compiler.mk .aligned 5000).layout (.array "Cells" cellType) cellParams = .ok cellsLayout := rfl

/-- That layout of a cell is well-formed. -/
theorem wellFormed_cellLayout : cellLayout.WellFormed :=
  Layout.wellFormed_of_layout buildable_cellType layout_cellType

/-- So is that of two cells. -/
theorem wellFormed_cellsLayout : cellsLayout.WellFormed :=
  Layout.wellFormed_of_layout buildable_cells layout_cells

/-- No name in a cell looks like a slot. -/
theorem unambiguous_cellLayout : cellLayout.Unambiguous :=
  Layout.unambiguous_of_prefix (by decide)

/-- Neither does one in an array of cells. -/
theorem unambiguous_cellsLayout : cellsLayout.Unambiguous :=
  Layout.unambiguous_of_prefix (by decide)

/-- The mark of a cell is its second field. -/
theorem names_mark : Layout.Names cellLayout "mark" ⟨"mark", 4, .scalar .int32⟩ := by
  have held : (⟨"mark", 4, .scalar .int32⟩ : Field) ∈ cellLayout.places :=
    List.mem_cons_of_mem _ List.mem_cons_self
  exact .here held rfl rfl

/-- Leading zeros make no difference to the slot that a mark is for. -/
theorem names_padded_mark :
    Layout.Names cellsLayout "00_mark" ⟨"mark", 12, .scalar .int32⟩ := by
  have held : (⟨"", 0, cellsLayout⟩ : Field) ∈ cellsLayout.places := List.mem_singleton.2 rfl
  have taken : Layout.slotOf? "" "00_mark" = some (0, "mark") := by decide
  exact .inSlot held rfl taken (by decide) names_mark

/-- A cell is written to the first slot. -/
theorem ofTree_unmarkedCells :
    Blob.ofTree (Compiler.mk .aligned 5000) (.array "Cells" cellType) unmarkedCells cellParams =
      .ok ⟨cellsLayout,
        [2, 0, 0, 0, 1, 0, 0, 0, 0, 0, 0, 0, 0, 0, 0, 0, 255, 255, 255, 255, 0, 0, 0, 0]⟩ := by
  cbv

/-- Of two marks that are spelled alike the second one is written. -/
theorem ofTree_twiceMarked :
    Blob.ofTree (Compiler.mk .aligned 5000) cellType twiceMarked ∅ =
      .ok ⟨cellLayout, [0, 0, 0, 0, 2, 0, 0, 0]⟩ := by
  cbv

/-- Of two names for one mark the later one counts. -/
theorem ofTree_paddedCells :
    Blob.ofTree (Compiler.mk .aligned 5000) (.array "Cells" cellType) paddedCells cellParams =
      .ok ⟨cellsLayout,
        [2, 0, 0, 0, 1, 0, 0, 0, 0, 0, 0, 0, 1, 0, 0, 0, 255, 255, 255, 255, 0, 0, 0, 0]⟩ := by
  cbv

/-- The mark of a cell goes to the field that has the name of the mark. -/
theorem ofTree_markedBoard :
    Blob.ofTree (Compiler.mk .aligned 5000) clashType markedBoard params =
      .ok ⟨clashLayout, [2, 0, 0, 0, 0, 0, 0, 0, 255, 255, 255, 255, 0, 0, 0, 0,
        255, 255, 255, 255, 0, 0, 0, 0, 5, 0, 0, 0]⟩ := by
  cbv

end Board

/-- A cell whose fields are given once each keeps both of them. -/
theorem Blob.keepsAll_of_ofTree_iff_cell :
    (DataType.array "Cells" Board.cellType).Buildable ∧ ∃ blob,
      ofTree (Compiler.mk .aligned 5000) (.array "Cells" Board.cellType) Board.unmarkedCells
        Board.cellParams = .ok blob ∧
      blob.layout.Unambiguous ∧
      (Board.unmarkedCells.leaves.map (·.1)).Nodup ∧
      ∀ leaf ∈ Board.unmarkedCells.leaves, blob.Keeps leaf := by
  have distinct : (Board.unmarkedCells.leaves.map (·.1)).Nodup := by decide
  have zero : ∀ leaf ∈ Board.unmarkedCells.leaves, leaf.2 = .int 0 := by
    intro leaf mem
    have leaves : Board.unmarkedCells.leaves = [("0_index", .int 0), ("0_mark", .int 0)] := rfl
    rw [leaves] at mem
    simp only [List.mem_cons, List.not_mem_nil, or_false] at mem
    rcases mem with rfl | rfl <;> rfl
  have kept := (keepsAll_of_ofTree_iff Board.buildable_cells Board.ofTree_unmarkedCells
    Board.unambiguous_cellsLayout).2.2
      ⟨distinct, fun a first b second _ _ _ _ => by rw [zero a first, zero b second]⟩
  exact ⟨Board.buildable_cells, _, Board.ofTree_unmarkedCells, Board.unambiguous_cellsLayout, kept⟩

/-- Of two marks for one cell only one is kept, whether they have one name or not, and a cell on a
board is lost to a field that has the name of its mark. -/
theorem Blob.not_keeps_of_ofTree_cell :
    (Board.cellType.Buildable ∧ Board.cellLayout.Unambiguous ∧ ∃ blob,
      ofTree (Compiler.mk .aligned 5000) Board.cellType Board.twiceMarked ∅ = .ok blob ∧
        blob.layout = Board.cellLayout ∧ ¬(Board.twiceMarked.leaves.map (·.1)).Nodup ∧
        ("mark", .int 1) ∈ Board.twiceMarked.leaves ∧ ¬blob.Keeps ("mark", .int 1)) ∧
    ((DataType.array "Cells" Board.cellType).Buildable ∧ Board.cellsLayout.Unambiguous ∧ ∃ blob,
      ofTree (Compiler.mk .aligned 5000) (.array "Cells" Board.cellType) Board.paddedCells
          Board.cellParams = .ok blob ∧
        blob.layout = Board.cellsLayout ∧ (Board.paddedCells.leaves.map (·.1)).Nodup ∧
        ("00_mark", .int 2) ∈ Board.paddedCells.leaves ∧ ¬blob.Keeps ("00_mark", .int 2)) ∧
    (Board.clashType.Buildable ∧ ∃ blob,
      ofTree (Compiler.mk .aligned 5000) Board.clashType Board.markedBoard Board.params =
          .ok blob ∧
        blob.layout = Board.clashLayout ∧ Board.cells? blob = some []) := by
  refine ⟨⟨Board.buildable_cellType, Board.unambiguous_cellLayout, _, Board.ofTree_twiceMarked,
    rfl, by decide, List.mem_cons_self, ?_⟩, ⟨Board.buildable_cells,
    Board.unambiguous_cellsLayout, _, Board.ofTree_paddedCells, rfl, by decide,
    List.mem_cons_self, ?_⟩, Board.buildable_clashType, _, Board.ofTree_markedBoard, rfl,
    by decide +kernel⟩
  · rw [keeps_iff Board.wellFormed_cellLayout Board.unambiguous_cellLayout Board.names_mark rfl]
    intro stores
    have bytes := Option.some.inj (Except.ok.inj stores)
    exact absurd bytes (by decide)
  · rw [keeps_iff Board.wellFormed_cellsLayout Board.unambiguous_cellsLayout
      Board.names_padded_mark rfl]
    intro stores
    have bytes := Option.some.inj (Except.ok.inj stores)
    exact absurd bytes (by decide)

end DeviceBlob
