import DeviceBlob.Proofs.Blob.Orderly
import DeviceBlob.Proofs.Tree.Exports
import DeviceBlob.Proofs.Tree.WriteBack

/-!
# Trees that spell the fields as they are declared

The keys of a tree are brought into snake case before they are looked up, and the accessors of a
layout keep the names of the fields as they are declared.  So no tree can ever give a value to a
scalar or an enum whose name is not in snake case (`spellable_of_write`).  Where all of these names
are, a layout is `Spellable`, and the tree that a fresh blob shows is taken back and makes the same
blob (`write_nestedTree_blank`).  Main statement: `Blob.ofTree_nestedTree_allocate_iff`.
-/

namespace DeviceBlob

/-! ### The names of leaves -/

namespace Value

mutual

/-- The leaves of a tree have names in snake case, however its keys are spelled. -/
theorem snake_of_mem_leavesAt {entry : String × Value} : ∀ {value : Value} {address : String},
    Name.snake address = address → entry ∈ value.leavesAt address →
      Name.snake entry.1 = entry.1
  | bool _, _, fixed, mem | int _, _, fixed, mem | float _, _, fixed, mem
  | label _, _, fixed, mem => by
    simp only [leavesAt, List.mem_singleton] at mem
    rw [mem]
    exact fixed
  | list _, _, fixed, mem => snake_of_mem_itemLeaves fixed mem
  | map _, _, fixed, mem => snake_of_mem_entryLeaves fixed mem

/-- The leaves of a list are named in snake case. -/
theorem snake_of_mem_itemLeaves {entry : String × Value} : ∀ {items : List Value}
    {address : String} {position : Nat}, Name.snake address = address →
      entry ∈ itemLeaves address position items → Name.snake entry.1 = entry.1
  | [], _, _, _, mem => absurd mem List.not_mem_nil
  | item :: rest, _, position, fixed, mem => by
    rcases List.mem_append.1 mem with mem | mem
    · exact snake_of_mem_leavesAt
        (Name.snake_join_of_fixed fixed (Name.snake_toString position)) mem
    · exact snake_of_mem_itemLeaves fixed mem

/-- The leaves of entries are named in snake case. -/
theorem snake_of_mem_entryLeaves {entry : String × Value} : ∀ {entries : List (String × Value)}
    {address : String}, Name.snake address = address → entry ∈ entryLeaves address entries →
      Name.snake entry.1 = entry.1
  | [], _, _, mem => absurd mem List.not_mem_nil
  | (key, item) :: rest, _, fixed, mem => by
    rcases List.mem_append.1 mem with mem | mem
    · exact snake_of_mem_leavesAt (Name.snake_join_of_fixed fixed (Name.snake_snake key)) mem
    · exact snake_of_mem_entryLeaves fixed mem

end

/-- The leaves of a tree are named in snake case. -/
theorem snake_of_mem_leaves {tree : Value} {entry : String × Value} (mem : entry ∈ tree.leaves) :
    Name.snake entry.1 = entry.1 := by
  have root : Name.snake rootField = rootField := by decide
  cases tree with
  | list items => exact snake_of_mem_itemLeaves rfl mem
  | map entries => exact snake_of_mem_entryLeaves rfl mem
  | _ =>
    rw [List.mem_singleton.1 mem]
    exact root

end Value

namespace Layout

/-- The names of all scalars and enums outside of arrays are in snake case. -/
def Spellable (layout : Layout) : Prop :=
  ∀ place ∈ layout.places, place.content.isArray = false → place.content.isPadding = false →
    Name.snake place.name = place.name

/-- A layout that any tree was written to is spellable: its scalars and enums were found among the
leaves. -/
theorem spellable_of_write {layout : Layout} {bytes out : Bytes} {tree : Value}
    (size : bytes.length = layout.size) (written : layout.write bytes tree.flatten = .ok out) :
    layout.Spellable := by
  intro place mem plain valued
  obtain ⟨value, found, -⟩ := encoded_of_write size written mem plain valued
  have leaf := SortedMap.mem_of_get?_ofList found
  exact @Value.snake_of_mem_leaves tree (place.name, value) leaf

/-! ### The tree of a blob without elements -/

/-- Where no array holds an element, the leaves are the values of the other places. -/
theorem mem_partLeaves_iff {whole : Bytes} {layout : Layout} {address : String} {offset : Nat}
    (vacant : ∀ part ∈ partsIn whole address offset layout, part.content.isArray = true →
      part.value = .list []) (outer : String) {entry : String × Value} :
    entry ∈ partLeaves outer (partsIn whole address offset layout) ↔
      ∃ part ∈ partsIn whole address offset layout, part.content.isArray = false ∧
        entry = (leafAddress outer part.name, part.value) := by
  rw [partLeaves, List.mem_flatMap]
  refine exists_congr fun part => and_congr_right fun mem => ?_
  cases isArray : part.content.isArray with
  | true =>
    rw [vacant part mem isArray]
    simp [Value.leavesAt, Value.itemLeaves]
  | false =>
    rw [leavesAt_of_mem_partsIn mem isArray]
    simp

/-! ### Blank layouts -/

section Blank

variable {whole : Bytes}

mutual

/-- Each place of a blank layout is blank. -/
theorem blank_of_mem_placesAt {place : Field} : ∀ {layout : Layout} {address : String}
    {offset : Nat}, layout.WellFormed → whole.slice offset layout.size = layout.blank →
      place ∈ placesAt address offset layout →
        place.content.WellFormed ∧
          whole.slice place.offset place.content.size = place.content.blank
  | scalar _, _, _, formed, blank, mem | enum _, _, _, formed, blank, mem
  | padding _, _, _, formed, blank, mem | array _ _ _, _, _, formed, blank, mem => by
    simp only [placesAt, List.mem_singleton] at mem
    subst mem
    exact ⟨formed, blank⟩
  | record _ _, _, _, formed, blank, mem => blank_of_mem_placeAccessors formed.1 blank mem

/-- Each place in blank fields is blank. -/
theorem blank_of_mem_placeAccessors {place : Field} : ∀ {fields : List (String × Layout)}
    {address : String} {offset : Nat}, FieldsWellFormed fields →
      whole.slice offset (fieldsSize fields) = blankFields fields →
        place ∈ placeAccessors address offset fields →
          place.content.WellFormed ∧
            whole.slice place.offset place.content.size = place.content.blank
  | [], _, _, _, _, mem => absurd mem List.not_mem_nil
  | (_, layout) :: rest, _, _, formed, blank, mem => by
    obtain ⟨here, others⟩ := Bytes.slice_eq_append blank (length_blank formed.2.1)
    rcases List.mem_append.1 mem with mem | mem
    · exact blank_of_mem_placesAt formed.2.1 here mem
    · exact blank_of_mem_placeAccessors formed.2.2 others mem

end

/-- The arrays of a blank layout hold no elements. -/
theorem value_of_blank_array {layout : Layout} {address : String} {offset : Nat}
    (formed : layout.WellFormed) (blank : whole.slice offset layout.size = layout.blank) :
    ∀ part ∈ partsIn whole address offset layout, part.content.isArray = true →
      part.value = .list [] := by
  intro part mem isArray
  obtain ⟨place, held, -, rfl⟩ := mem_partsIn mem
  obtain ⟨formed', blank'⟩ := blank_of_mem_placesAt formed blank held
  obtain ⟨name, offset, content⟩ := place
  obtain ⟨typeName, capacity, element, rfl⟩ := isArray_iff.1 isArray
  have none : Slots.occupied capacity element (array typeName capacity element).blank = [] :=
    List.map_eq_nil_iff.1 (present_blank formed')
  show Value.list (flatItems capacity element (whole.slice offset _)) = .list []
  rw [flatItems, blank', none]
  rfl

end Blank

/-! ### Writing without entries for arrays -/

mutual

/-- The second pass leaves orderly bytes as they are if there are no entries. -/
theorem writeArrays_nil : ∀ {layout : Layout} {address : String} {bytes : Bytes},
    layout.Orderly bytes → writeArrays address layout bytes [] = .ok (bytes, [])
  | scalar _, _, _, _ | enum _, _, _, _ | padding _, _, _, _ => rfl
  | record _ _, _, _, orderly => writeArrayFields_nil orderly
  | array name capacity element, address, bytes, orderly => by
    have none : (takenSlots address []).entries = [] := rfl
    rw [writeArrays_array, none, List.foldlM_nil]
    exact congrArg (fun b => Except.ok (b, [])) orderly.2.recount_eq

/-- Without entries the second pass writes nothing. -/
theorem writeArrayFields_nil : ∀ {fields : List (String × Layout)} {address : String}
    {bytes : Bytes}, FieldsOrderly fields bytes →
      writeArrayFields address fields bytes [] = .ok (bytes, [])
  | [], _, _, _ => rfl
  | (name, layout) :: rest, _, bytes, orderly => by
    refine writeArrayFields_cons_eq_ok_iff.2 ⟨_, _, _, writeArrays_nil orderly.1,
      writeArrayFields_nil orderly.2, ?_⟩
    rw [List.take_append_drop]

end

/-! ### Whole layouts -/

variable {layout : Layout}

/-- The tree that a fresh blob shows is taken back by a spellable layout, and nothing changes. -/
theorem write_nestedTree_blank (formed : layout.WellFormed) (valued : layout.isPadding = false)
    (distinct : layout.DistinctNames) (spellable : layout.Spellable) :
    layout.write layout.blank (nestedTree layout.blank layout).flatten = .ok layout.blank := by
  have size := length_blank formed
  have all : layout.blank.slice 0 layout.size = layout.blank := Bytes.slice_all size
  have orderly := orderly_blank formed
  have leaves : ∀ entry, entry ∈ (nestedTree layout.blank layout).leaves ↔
      ∃ part ∈ partsIn layout.blank layout.rootAddress 0 layout,
        part.content.isArray = false ∧ entry = (part.name, part.value) := by
    intro entry
    rw [(perm_leaves_nestedTree formed distinct valued _).mem_iff,
      mem_partLeaves_iff (value_of_blank_array formed all)]
    refine exists_congr fun part => and_congr_right fun mem => and_congr_right fun plain => ?_
    obtain ⟨place, held, valued', rfl⟩ := mem_partsIn mem
    have named : Name.snake (partAt layout.blank place).name = (partAt layout.blank place).name :=
      spellable place held plain valued'
    rw [leafAddress_empty, named]
  have given : ∀ part ∈ partsIn layout.blank layout.rootAddress 0 layout,
      part.content.isArray = false →
        (nestedTree layout.blank layout).flatten.get? part.name = some part.value := by
    intro part mem plain
    apply SortedMap.get?_ofList_of_agree ((leaves _).2 ⟨part, mem, plain, rfl⟩)
    intro other again
    obtain ⟨part', mem', -, same⟩ := (leaves _).1 again
    obtain ⟨sameName, rfl⟩ := Prod.mk.inj same
    have nodup := formed.nodup_places.sublist
      (names_partsIn_sublist layout.blank layout.rootAddress 0 layout)
    rw [List.inj_on_of_nodup_map nodup mem mem' sameName]
  have none : layout.remaining (nestedTree layout.blank layout).flatten = [] := by
    rw [List.eq_nil_iff_forall_not_mem]
    intro entry mem
    obtain ⟨held, free⟩ := mem_remaining.1 mem
    have leaf := SortedMap.mem_of_get?_ofList (SortedMap.get?_eq_some_iff.2 held)
    obtain ⟨part, among, plain, same⟩ := (leaves _).1 leaf
    obtain ⟨place, there, -, rfl⟩ := mem_partsIn among
    refine free (mem_leafNames.2 ⟨place, there, plain, ?_⟩)
    exact (congrArg Prod.fst same).symm
  have first := @writeLeaves_eq_self layout.typeName (nestedTree layout.blank layout).flatten
    layout.blank layout layout.rootAddress 0 (all.symm ▸ orderly) given
  rw [all] at first
  refine write_eq_ok_iff.2 ⟨layout.blank, [], first, ?_, rfl⟩
  rw [none]
  exact writeArrays_nil orderly

end Layout

/-! ### Fresh blobs -/

namespace Blob

variable {compiler : Compiler} {type : DataType} {params : Params} {layout : Layout}

/-- A blob was made of a tree by writing the tree into a fresh blob of the layout. -/
theorem ofTree_eq_ok_iff {tree : Value} {blob : Blob}
    (compiled : compiler.layout type params = .ok layout) :
    ofTree compiler type tree params = .ok blob ↔
      blob.layout = layout ∧ layout.write layout.blank tree.flatten = .ok blob.bytes := by
  simp only [ofTree, layout_withInferred compiled, ok_bind, bind_eq_ok, pure_eq_ok]
  constructor
  · rintro ⟨bytes, written, rfl⟩
    exact ⟨rfl, written⟩
  · rintro ⟨rfl, written⟩
    exact ⟨blob.bytes, written, rfl⟩

/-- Of a spellable layout a fresh blob is made again from the tree that it shows. -/
theorem ofTree_nestedTree_allocate (buildable : type.Buildable)
    (compiled : compiler.layout type params = .ok layout) (spellable : layout.Spellable) :
    ofTree compiler type (allocate layout).nestedTree params = .ok (allocate layout) := by
  have formed := Layout.wellFormed_of_layout buildable compiled
  have valued := Layout.isPadding_of_layout compiled
  obtain ⟨required, -, placed⟩ := Compiler.layout_eq_ok_iff.1 compiled
  have distinct := Layout.distinctNames_of_place buildable placed
  have whole : (allocate layout).region = layout.blank :=
    List.take_of_length_le (Nat.le_of_eq (Layout.length_blank formed))
  refine (ofTree_eq_ok_iff compiled).2 ⟨rfl, ?_⟩
  rw [nestedTree, whole]
  exact Layout.write_nestedTree_blank formed valued distinct spellable

/-- **A fresh blob is made again from the tree that it shows** exactly if the names of all scalars
and enums outside of arrays are in snake case.  Of another layout no tree at all makes a blob. -/
theorem ofTree_nestedTree_allocate_iff (buildable : type.Buildable)
    (compiled : compiler.layout type params = .ok layout) :
    (ofTree compiler type (allocate layout).nestedTree params = .ok (allocate layout) ↔
        layout.Spellable) ∧
      ((∃ tree blob, ofTree compiler type tree params = .ok blob) ↔ layout.Spellable) := by
  have only : ∀ tree blob, ofTree compiler type tree params = .ok blob → layout.Spellable := by
    intro tree blob made
    obtain ⟨-, written⟩ := (ofTree_eq_ok_iff compiled).1 made
    have size := Layout.length_blank (Layout.wellFormed_of_layout buildable compiled)
    exact Layout.spellable_of_write size written
  have back := ofTree_nestedTree_allocate buildable compiled
  exact ⟨⟨only _ _, back⟩, fun ⟨tree, blob, made⟩ => only tree blob made,
    fun spellable => ⟨_, _, back spellable⟩⟩

/-- The tree of a fresh scene is taken back. -/
theorem ofTree_nestedTree_allocate_iff_scene :
    Scene.sceneType.Buildable ∧
      (Compiler.mk .aligned 5000).layout Scene.sceneType Scene.params = .ok Scene.sceneLayout ∧
      Scene.sceneLayout.Spellable ∧
      ofTree (Compiler.mk .aligned 5000) Scene.sceneType (allocate Scene.sceneLayout).nestedTree
        Scene.params = .ok (allocate Scene.sceneLayout) := by
  have spellable : Scene.sceneLayout.Spellable := by
    unfold Layout.Spellable
    decide
  exact ⟨Scene.buildable_sceneType, Scene.layout_sceneType, spellable,
    (ofTree_nestedTree_allocate_iff Scene.buildable_sceneType Scene.layout_sceneType).1.2
      spellable⟩

end Blob

/-! ### A motor whose speed cannot be given -/

namespace Motor

/-- A motor with a field in camel case. -/
def motorType : DataType := .record "Motor" [("maxSpeed", .scalar .int32)]

/-- A motor in bytes. -/
def motorLayout : Layout := .record "Motor" [("maxSpeed", .scalar .int32)]

/-- The motor can be built. -/
theorem buildable_motorType : motorType.Buildable := by
  have built : DataType.ofFields "Motor" [("maxSpeed", .scalar .int32)] = .ok motorType := rfl
  refine .record ?_ built
  simp [DataType.Buildable.scalar]

end Motor

/-- A fresh motor shows its speed under the name that the field was declared with, and is told that
the speed is missing. -/
theorem Blob.ofTree_nestedTree_allocate_motor :
    Motor.motorType.Buildable ∧
      (Compiler.mk .aligned 5000).layout Motor.motorType ∅ = .ok Motor.motorLayout ∧
      (allocate Motor.motorLayout).nestedTree = .map [("maxSpeed", .int 0)] ∧
      ofTree (Compiler.mk .aligned 5000) Motor.motorType (allocate Motor.motorLayout).nestedTree ∅ =
        .error (.uninitializedField "Motor" "maxSpeed") :=
  ⟨Motor.buildable_motorType, rfl, rfl, rfl⟩

end DeviceBlob
