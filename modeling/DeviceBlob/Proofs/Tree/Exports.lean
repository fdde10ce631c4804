import DeviceBlob.Proofs.Tree.Passes
import DeviceBlob.Proofs.Tree.Flat

/-!
# The two forms of a blob have the same leaves

The flat form names a value by the declared names of the fields that lead to it, joined to one name,
and the nested form by one key after the other; flattened, the first is brought into snake case as a
whole and the second key by key.  Because snake case works on a joined name part by part
(`leafAddress_join`), both put the leaves of a part under the same addresses
(`perm_leavesAt_nestedValue`).  Elements of arrays are read the same way under the address of their
slot.  Main statement: `Blob.flatten_flatTree`.
-/

namespace DeviceBlob

/-! ### Maps and lists of leaves -/

namespace Value

/-- The leaves of a record are those of its entries, one entry after the other. -/
theorem entryLeaves_eq_flatMap (address : String) : ∀ entries : List (String × Value),
    entryLeaves address entries =
      entries.flatMap fun entry => entry.2.leavesAt (Name.join address (Name.snake entry.1))
  | [] => rfl
  | (key, item) :: rest => by
    rw [entryLeaves, entryLeaves_eq_flatMap address rest, List.flatMap_cons]

/-- The leaves of a map are those of the entries that it was filled from. -/
theorem perm_leavesAt_ofEntries {entries : List (String × Value)}
    (nodup : (entries.map (·.1)).Nodup) (address : String) :
    ((ofEntries entries).leavesAt address).Perm
      (entries.flatMap fun entry => entry.2.leavesAt (Name.join address (Name.snake entry.1))) := by
  rw [ofEntries, leavesAt, entryLeaves_eq_flatMap]
  exact (SortedMap.perm_ofList nodup).flatMap_right _

/-- Lists have the same leaves if their items have, at each position and address. -/
theorem perm_itemLeaves_map {α : Type} {f g : α → Value} (address : String) :
    ∀ {contents : List α} (position : Nat), (∀ content ∈ contents, ∀ address,
      ((f content).leavesAt address).Perm ((g content).leavesAt address)) →
        (itemLeaves address position (contents.map f)).Perm
          (itemLeaves address position (contents.map g))
  | [], _, _ => List.Perm.refl _
  | content :: rest, position, same => by
    rw [List.map_cons, List.map_cons, itemLeaves, itemLeaves]
    exact (same content List.mem_cons_self _).append
      (perm_itemLeaves_map address (position + 1) fun other mem =>
        same other (List.mem_cons_of_mem _ mem))

end Value

namespace Layout

/-! ### Addresses -/

/-- The address of what has a declared address, under an outer address that is in snake case
already.  What has no address of its own has the outer one. -/
def leafAddress (outer address : String) : String :=
  if address = "" then outer else Name.join outer (Name.snake address)

/-- Behind a named address stands the address in snake case. -/
theorem leafAddress_of_named {address : String} (named : address ≠ "") (outer : String) :
    leafAddress outer address = Name.join outer (Name.snake address) := if_neg named

/-- Without an outer address only the snake case is left. -/
theorem leafAddress_empty (address : String) : leafAddress "" address = Name.snake address := by
  unfold leafAddress
  split
  · next empty =>
    subst empty
    rfl
  · exact Name.join_empty _

/-- A field is below its record: it does not matter whether its key is brought into snake case on
its own or as the end of a joined name. -/
theorem leafAddress_join {name : String} (named : name ≠ "") (outer address : String) :
    leafAddress outer (Name.join address name) =
      Name.join (leafAddress outer address) (Name.snake name) := by
  rw [leafAddress_of_named (Name.join_ne_empty named), Name.snake_join]
  by_cases empty : address = ""
  · subst empty
    rfl
  · have written : Name.snake address ≠ "" := fun none => empty (Name.snake_eq_empty none)
    rw [leafAddress_of_named empty, Name.join_assoc _ _ _ written]

/-! ### Records whose fields have different names -/

mutual

/-- No two fields of a record that have a value have one name, and none of an element's have. -/
def DistinctNames : Layout → Prop
  | record _ fields => (valueNames fields).Nodup ∧ FieldsDistinct fields
  | array _ _ element => DistinctNames element
  | _ => True

/-- The same inside consecutive fields. -/
def FieldsDistinct : List (String × Layout) → Prop
  | [] => True
  | (_, layout) :: rest => DistinctNames layout ∧ FieldsDistinct rest

end

/-- Padding brings in no name that a field has. -/
theorem fieldsDistinct_paddingBehind (runs : List VectorRun) (position : Nat)
    {rest : List (String × Layout)} (h : FieldsDistinct rest) :
    FieldsDistinct (paddingBehind runs position ++ rest) := by
  unfold paddingBehind
  cases runs.find? (·.last = position) with
  | none => exact h
  | some run => exact ⟨trivial, h⟩

mutual

/-- In a layout of a buildable type all names of one record are different. -/
theorem distinctNames_of_place {packing : Packing} : ∀ {type : DataType} {params : Params}
    {layout : Layout}, type.Buildable → place packing params type = .ok layout →
      layout.DistinctNames
  | .scalar _, _, _, _, placed | .enum _, _, _, _, placed => by
    cases placed
    trivial
  | .array _ _, _, _, buildable, placed => by
    obtain ⟨_, _, -, below, rfl⟩ := place_array_eq_ok_iff.1 placed
    have inner := distinctNames_of_place buildable.element below
    exact inner
  | .record _ _, _, _, buildable, placed => by
    obtain ⟨parts, all, -, rfl⟩ := place_record_eq_ok_iff.1 placed
    obtain ⟨-, -, -, -, nodup, -⟩ := DataType.ofFields_eq_ok_iff.1 buildable.ofFields_eq_ok
    rw [← valueNames_of_placeAll all] at nodup
    exact ⟨nodup, fieldsDistinct_of_placeAll buildable.of_mem_fields all⟩

/-- So they are in the fields that are placed for a record. -/
theorem fieldsDistinct_of_placeAll {packing : Packing} {runs : List VectorRun} :
    ∀ {fields : List (String × DataType)} {position : Nat} {params : Params}
      {parts : List (String × Layout)}, (∀ field ∈ fields, field.2.Buildable) →
      placeAll packing params runs position fields = .ok parts → FieldsDistinct parts
  | [], _, _, _, _, placed => by
    cases placed
    trivial
  | (name, type) :: rest, position, _, _, buildable, placed => by
    obtain ⟨layout, others, here, there, rfl⟩ := placeAll_cons_eq_ok_iff.1 placed
    have behind := fieldsDistinct_of_placeAll
      (fun field mem => buildable field (List.mem_cons_of_mem _ mem)) there
    exact ⟨distinctNames_of_place (buildable _ List.mem_cons_self) here,
      fieldsDistinct_paddingBehind runs position behind⟩

end

/-! ### The leaves of the flat form -/

variable {layout : Layout} {bytes : Bytes}

/-- The leaves of some parts under an outer address. -/
def partLeaves (outer : String) (parts : List Part) : List (String × Value) :=
  parts.flatMap fun part => part.value.leavesAt (leafAddress outer part.name)

/-- The leaves of two lists of parts stand one behind the other. -/
theorem partLeaves_append (outer : String) (parts others : List Part) :
    partLeaves outer (parts ++ others) = partLeaves outer parts ++ partLeaves outer others :=
  List.flatMap_append

/-- No two places of a whole blob have one name. -/
theorem WellFormed.nodup_places (formed : layout.WellFormed) :
    (layout.places.map (·.name)).Nodup := by
  cases layout with
  | record name fields => exact formed.2
  | _ => exact List.nodup_singleton _

/-- The places of everything but an array are named. -/
theorem WellFormed.name_of_mem_places (formed : layout.WellFormed) {place : Field}
    (isArray : layout.isArray = false) (mem : place ∈ layout.places) : place.name ≠ "" := by
  cases layout with
  | record name fields => exact name_of_mem_placeAccessors formed.1 mem
  | array _ _ _ => cases isArray
  | _ =>
    rw [List.mem_singleton.1 mem]
    exact (by decide : Value.rootField ≠ "")

/-- The leaves of a map in flat form are those of its parts. -/
theorem perm_leavesAt_ofEntries_flatAt (formed : layout.WellFormed)
    (isArray : layout.isArray = false) (outer : String) :
    ((Value.ofEntries (flatAt bytes layout.rootAddress 0 layout)).leavesAt outer).Perm
      (partLeaves outer (partsIn bytes layout.rootAddress 0 layout)) := by
  have nodup : ((flatAt bytes layout.rootAddress 0 layout).map (·.1)).Nodup := by
    rw [flatAt_eq, List.map_map]
    exact formed.nodup_places.sublist (names_partsIn_sublist bytes layout.rootAddress 0 layout)
  refine (Value.perm_leavesAt_ofEntries nodup outer).trans (List.Perm.of_eq ?_)
  rw [flatAt_eq, List.flatMap_map, partLeaves]
  refine List.flatMap_congr fun part mem => ?_
  obtain ⟨place, held, -, rfl⟩ := mem_partsIn mem
  rw [leafAddress_of_named]
  exact formed.name_of_mem_places isArray held

/-! ### The leaves of the nested form -/

/-- Reading fields from a slice is reading them from the whole. -/
theorem nestedFields_slice (whole : Bytes) (start length : Nat)
    (fields : List (String × Layout)) (offset : Nat) (inside : offset + fieldsSize fields ≤ length) :
    nestedFields (whole.slice start length) offset fields =
      nestedFields whole (start + offset) fields := by
  induction fields generalizing offset with
  | nil => rfl
  | cons field rest ih =>
    have room : offset + (field.2.size + fieldsSize rest) ≤ length := inside
    have behind := ih (offset + field.2.size) (by omega)
    rw [nestedFields, nestedFields, behind, Bytes.slice_slice (by omega), Nat.add_assoc]

/-- A record is read from the bytes that it covers. -/
theorem nestedValue_record_slice (whole : Bytes) (start : Nat) (name : String)
    (fields : List (String × Layout)) :
    nestedValue (whole.slice start (fieldsSize fields)) (record name fields) =
      .ofEntries (nestedFields whole start fields) := by
  rw [nestedValue, nestedFields_slice _ _ _ _ _ (by omega), Nat.add_zero]

mutual

/-- The leaves of the nested form are those of the parts of the flat form, in another order. -/
theorem perm_leavesAt_nestedValue : ∀ {layout : Layout}, layout.WellFormed →
    layout.DistinctNames → layout.isPadding = false →
      ∀ (whole : Bytes) (outer address : String) (offset : Nat),
        ((nestedValue (whole.slice offset layout.size) layout).leavesAt
            (leafAddress outer address)).Perm
          (partLeaves outer (partsIn whole address offset layout))
  | scalar kind, _, _, _, whole, outer, address, offset => by
    have single : partsIn whole address offset (scalar kind) =
      [⟨address, scalar kind, kind.read (whole.slice offset kind.width)⟩] := rfl
    rw [nestedValue, single, partLeaves, List.flatMap_singleton]
    exact List.Perm.refl _
  | enum type, _, _, _, whole, outer, address, offset => by
    have single : partsIn whole address offset (enum type) =
      [⟨address, enum type, type.read (whole.slice offset 4)⟩] := rfl
    rw [nestedValue, single, partLeaves, List.flatMap_singleton]
    exact List.Perm.refl _
  | padding _, _, _, valued, _, _, _, _ => by cases valued
  | array name capacity element, formed, distinct, _, whole, outer, address, offset => by
    have single : partsIn whole address offset (array name capacity element) =
      [⟨address, array name capacity element, .list (flatItems capacity element
        (whole.slice offset (array name capacity element).size))⟩] := rfl
    rw [nestedValue, single, partLeaves, List.flatMap_singleton, flatItems, Value.leavesAt,
      Value.leavesAt]
    refine Value.perm_itemLeaves_map _ 0 fun held _ outer => ?_
    -- An element is a record without an address, so its leaves are right under that of the slot.
    have inner := perm_leavesAt_nestedValue formed.2 distinct formed.1.isPadding held.2 outer "" 0
    obtain ⟨typeName, rest, rfl⟩ := formed.1
    rw [size_record, nestedValue_record_slice] at inner
    exact inner.trans (perm_leavesAt_ofEntries_flatAt formed.2 rfl outer).symm
  | record name fields, formed, distinct, _, whole, outer, address, offset => by
    have keys : ((nestedFields whole offset fields).map (·.1)).Nodup := by
      rw [keys_nestedFields]
      exact distinct.1
    rw [size_record, nestedValue_record_slice]
    exact (Value.perm_leavesAt_ofEntries keys _).trans
      (perm_leaves_nestedFields formed.1 distinct.2 whole outer address offset)

/-- The leaves of the fields of a record are those of its parts, in some order. -/
theorem perm_leaves_nestedFields : ∀ {fields : List (String × Layout)}, FieldsWellFormed fields →
    FieldsDistinct fields → ∀ (whole : Bytes) (outer address : String) (offset : Nat),
      ((nestedFields whole offset fields).flatMap fun entry =>
          entry.2.leavesAt (Name.join (leafAddress outer address) (Name.snake entry.1))).Perm
        (partLeaves outer (fieldPartsIn whole address offset fields))
  | [], _, _, _, _, _, _ => List.Perm.refl _
  | (name, layout) :: rest, formed, distinct, whole, outer, address, offset => by
    have behind := perm_leaves_nestedFields formed.2.2 distinct.2 whole outer address
      (offset + layout.size)
    rw [nestedFields, List.flatMap_append, fieldPartsIn_cons, partLeaves_append]
    refine List.Perm.append ?_ behind
    cases padded : layout.isPadding with
    | true =>
      cases layout <;> cases padded
      exact List.Perm.refl _
    | false =>
      rw [if_neg Bool.false_ne_true, List.flatMap_singleton, ← leafAddress_join formed.1]
      exact perm_leavesAt_nestedValue formed.2.1 distinct.1 padded whole outer _ offset

end

/-! ### Whole blobs -/

/-- The leaves of the tree that a whole blob shows in nested form. -/
theorem leaves_nestedTree (valued : layout.isPadding = false) (bytes : Bytes) :
    (nestedTree bytes layout).leaves =
      (nestedValue (bytes.slice 0 layout.size) layout).leavesAt
        (Name.snake layout.rootAddress) := by
  have root : Name.snake Value.rootField = Value.rootField := by decide
  have single (leaf : Layout) (plain : leaf.isPadding = false) :
      (Value.ofEntries (nestedFields bytes 0 [(Value.rootField, leaf)])).leaves =
        (nestedValue (bytes.slice 0 leaf.size) leaf).leavesAt (Name.snake Value.rootField) := by
    rw [nestedFields, plain]
    exact List.append_nil _
  cases layout with
  | record name fields =>
    rw [size_record, nestedValue_record_slice]
    rfl
  | array name capacity element =>
    rw [nestedValue, Slots.occupied_slice]
    rfl
  | scalar kind => exact single (scalar kind) rfl
  | enum type => exact single (enum type) rfl
  | padding kind => cases valued

/-- The leaves of the nested form of a whole blob are those of its parts. -/
theorem perm_leaves_nestedTree (formed : layout.WellFormed) (distinct : layout.DistinctNames)
    (valued : layout.isPadding = false) (bytes : Bytes) :
    (nestedTree bytes layout).leaves.Perm
      (partLeaves "" (partsIn bytes layout.rootAddress 0 layout)) := by
  rw [leaves_nestedTree valued, ← leafAddress_empty]
  exact perm_leavesAt_nestedValue formed distinct valued bytes "" layout.rootAddress 0

/-- So are the leaves of the flat form. -/
theorem perm_leaves_flatTree (formed : layout.WellFormed) (bytes : Bytes) :
    (flatTree bytes layout).leaves.Perm
      (partLeaves "" (partsIn bytes layout.rootAddress 0 layout)) := by
  cases isArray : layout.isArray with
  | true =>
    obtain ⟨name, capacity, element, rfl⟩ := isArray_iff.1 isArray
    have only : partsIn bytes "" 0 (array name capacity element) = [⟨"", array name capacity element,
        .list (flatItems capacity element (bytes.slice 0 (array name capacity element).size))⟩] :=
      rfl
    rw [rootAddress, only, partLeaves, List.flatMap_singleton, flatItems, Slots.occupied_slice]
    exact List.Perm.refl _
  | false =>
    rw [flatTree_eq isArray]
    exact perm_leavesAt_ofEntries_flatAt formed isArray ""

end Layout

namespace Blob

variable {compiler : Compiler} {type : DataType} {params : Params} {layout : Layout}

/-- **The flat and the nested form of a blob carry the same data.**  Whatever the bytes are, both
have the same leaves; so they flatten to the same map wherever no two leaves of the nested form have
one address. -/
theorem flatten_flatTree (buildable : type.Buildable)
    (compiled : compiler.layout type params = .ok layout) (bytes : Bytes) :
    (flatTree ⟨layout, bytes⟩).leaves.Perm (nestedTree ⟨layout, bytes⟩).leaves ∧
      (((nestedTree ⟨layout, bytes⟩).leaves.map (·.1)).Nodup →
        (flatTree ⟨layout, bytes⟩).flatten = (nestedTree ⟨layout, bytes⟩).flatten) := by
  have formed := Layout.wellFormed_of_layout buildable compiled
  have valued := Layout.isPadding_of_layout compiled
  obtain ⟨required, -, placed⟩ := Compiler.layout_eq_ok_iff.1 compiled
  have distinct := Layout.distinctNames_of_place buildable placed
  have same : (flatTree ⟨layout, bytes⟩).leaves.Perm (nestedTree ⟨layout, bytes⟩).leaves :=
    (Layout.perm_leaves_flatTree formed _).trans
      (Layout.perm_leaves_nestedTree formed distinct valued _).symm
  refine ⟨same, fun nodup => ?_⟩
  exact SortedMap.ofList_congr (SortedMap.functional_of_nodup nodup) fun _ => same.mem_iff

/-- A scene whose bytes are all seven holds two particles, and both forms show the same of them. -/
theorem flatten_flatTree_scene :
    Scene.sceneType.Buildable ∧
      (Compiler.mk .aligned 5000).layout Scene.sceneType Scene.params = .ok Scene.sceneLayout ∧
      ((nestedTree ⟨Scene.sceneLayout, List.replicate 60 7⟩).leaves.map (·.1)).Nodup ∧
      (flatTree ⟨Scene.sceneLayout, List.replicate 60 7⟩).flatten =
        (nestedTree ⟨Scene.sceneLayout, List.replicate 60 7⟩).flatten := by
  have nodup : ((nestedTree ⟨Scene.sceneLayout, List.replicate 60 7⟩).leaves.map (·.1)).Nodup := by
    decide +kernel
  exact ⟨Scene.buildable_sceneType, Scene.layout_sceneType, nodup,
    (flatten_flatTree Scene.buildable_sceneType Scene.layout_sceneType _).2 nodup⟩

end Blob

end DeviceBlob
