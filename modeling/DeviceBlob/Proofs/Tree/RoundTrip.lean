import DeviceBlob.Proofs.Blob.Cached
import DeviceBlob.Proofs.Tree.Passes

/-!
# A tree is read back from the blob that was made of it

A fitting tree can be written to a regular layout, and the nested form of the bytes is the tree
again (`exists_write_of_fits`).  For a whole blob this says that encoding never fails on the trees
of its shape and that decoding undoes it (`nestedTree_of_ofTree`), with layouts from caches that are
safe for the type.  A blob of a single value shows that value under the name of the root field, so
there the tree comes back as a map of one entry (`shownAs`).
-/

namespace DeviceBlob

open LayoutCache (Request runOn)

namespace Layout

/-! ### Writing an element -/

/-- The index in a blank slot does not matter, for an element is written with its own. -/
theorem write_blankSlot {element : Layout} (starts : element.StartsWithIndex)
    (flat : SortedMap String Value) :
    element.write element.blankSlot flat = element.write element.blank flat := by
  obtain ⟨name, rest, rfl⟩ := starts
  have behind : (blankSlot (record name ((DataType.indexField, scalar .int32) :: rest))).drop 4 =
      (blank (record name ((DataType.indexField, scalar .int32) :: rest))).drop 4 := by
    simp [blankSlot, Slots.writeWord, Bytes.splice, Slots.wordSize]
  have first : ∀ (owner : String) (bytes : Bytes), writeLeaves owner flat "" (record name
      ((DataType.indexField, scalar .int32) :: rest)) bytes = (do
        let here ← writeLeaves owner flat (Name.join "" DataType.indexField) (scalar .int32) []
        let others ← writeLeafFields owner flat "" rest (bytes.drop 4)
        return here ++ others) := fun _ _ => rfl
  unfold write
  rw [rootAddress, first, first, behind]

/-- The entries of a fitting item have its index. -/
theorem get?_index {element : Layout} {item : Value} {n : Int64} (starts : element.StartsWithIndex)
    (regular : element.Regular) (fits : Fits element item)
    (index : item.item? DataType.indexField = some (.int n)) :
    item.flatten.get? DataType.indexField = some (.int n) := by
  have spread := regular.spread element starts.isPadding item fits
  obtain ⟨name, rest, rfl⟩ := starts
  have part : (⟨DataType.indexField, scalar .int32, fieldOf item DataType.indexField⟩ : Part) ∈
      (record name ((DataType.indexField, scalar .int32) :: rest)).parts item :=
    List.mem_append_left _ (List.mem_singleton.2 rfl)
  have found := spread.get?_flatten regular.separate part rfl
  rwa [fieldOf_of_entry index] at found

/-- An item that can be written as a blob of its own can be written into its slot. -/
theorem writable_of_fits {element : Layout} {slot : Nat} {item : Value} {n : Int64}
    (starts : element.StartsWithIndex) (regular : element.Regular) (fits : Fits element item)
    (index : item.item? DataType.indexField = some (.int n)) (number : n.toInt = slot)
    (written : ∃ out, element.write element.blank item.flatten = .ok out ∧
      (nestedValue out element).quiet = item.quiet) : element.Writable slot item := by
  have found := get?_index starts regular fits index
  obtain ⟨out, filled, read⟩ := written
  have size := length_blank regular.wellFormed
  have spread := regular.spread element starts.isPadding item fits
  refine ⟨addressed_of_index (spread.functional regular.separate) found, out, ?_,
    length_write size filled, read, ?_⟩
  · rw [write_blankSlot starts, filled]
  · rw [readWord_of_write starts size filled found rfl, number]

/-! ### Writing a whole tree -/

variable {layout : Layout} {tree : Value}

/-- A fitting tree can be written to a blank layout, and is read back. -/
theorem exists_write_of_fits (layout : Layout) : layout.Regular → layout.isPadding = false →
    ∀ tree, Fits layout tree → ∃ out, layout.write layout.blank tree.flatten = .ok out ∧
      (nestedValue out layout).quiet = tree.quiet := by
  -- Level by level: the second pass needs the theorem for the elements of the arrays.
  induction layout using induction_on_elements with
  | step layout ih =>
    intro regular valued tree fits
    have spread := regular.spread layout valued tree fits
    have separate := regular.separate
    have given : ∀ part ∈ layout.parts tree, part.content.isArray = false →
        tree.flatten.get? part.name = some part.value :=
      fun part mem => spread.get?_flatten separate mem
    obtain ⟨leaves, first, staged⟩ := @writeLeaves_blank layout.typeName tree.flatten layout
      layout.rootAddress tree regular.wellFormed fits given
    have size := length_writeLeaves (length_blank regular.wellFormed) first
    have writable : ∀ part ∈ layout.parts tree, part.Writable := by
      intro part mem name capacity element items content value
      obtain ⟨_, value', regular', starts, each⟩ := items_of_mem_parts regular fits mem content
      cases value.symm.trans value'
      obtain ⟨-, place, held, -, sameContent⟩ := place_of_mem_parts fits mem
      intro slot item found
      obtain ⟨⟨n, index, number⟩, fits'⟩ := each slot item found
      exact writable_of_fits starts regular' fits' index number
        (ih place held name capacity element (sameContent.trans content) regular'
          starts.isPadding item fits')
    obtain ⟨out, second, read⟩ := writeArrays_staged regular.wellFormed fits size staged writable
      (spread.served separate) (spread.apart separate)
    exact ⟨out, write_eq_ok_iff.2 ⟨leaves, _, first, second,
      spread.leftBy_remaining separate⟩, read valued⟩

end Layout

/-! ### Whole blobs -/

/-- Capacities that are given are not inferred from the tree. -/
theorem layout_withInferred {compiler : Compiler} {type : DataType} {params : Params}
    {layout : Layout} (compiled : compiler.layout type params = .ok layout)
    (flat : SortedMap String Value) :
    compiler.layout type (type.withInferred flat params) = .ok layout := by
  obtain ⟨required, checked, placed⟩ := Compiler.layout_eq_ok_iff.1 compiled
  refine Compiler.layout_eq_ok_iff.2 ⟨required, ?_, placed⟩
  rw [← checked]
  apply Params.requiredBy_congr
  intro name mem
  obtain ⟨value, given, -⟩ := Params.requiredBy_ok checked name mem
  rw [DataType.withInferred, Params.get?_union, given, Option.some_or]

namespace Layout

/-- How a whole blob shows a tree of its shape: a single value stands under the name of the root
field. -/
def shownAs : Layout → Value → Value
  | record _ _, tree => tree
  | array _ _ _, tree => tree
  | _, tree => .ofEntries [(Value.rootField, tree)]

/-- What is read from the bytes of a tree is shown as the tree is. -/
theorem quiet_nestedTree {layout : Layout} {tree : Value} {bytes : Bytes}
    (valued : layout.isPadding = false) (size : bytes.length = layout.size)
    (read : (nestedValue bytes layout).quiet = tree.quiet) :
    (nestedTree bytes layout).quiet = (layout.shownAs tree).quiet := by
  have single (leaf : Layout) (plain : leaf.isPadding = false) (whole : bytes.length = leaf.size)
      (same : (nestedValue bytes leaf).quiet = tree.quiet) :
      (Value.ofEntries (nestedFields bytes 0 [(Value.rootField, leaf)])).quiet =
        (Value.ofEntries [(Value.rootField, tree)]).quiet := by
    have fields : nestedFields bytes 0 [(Value.rootField, leaf)] =
        [(Value.rootField, nestedValue bytes leaf)] := by
      rw [nestedFields, plain, Bytes.slice_all whole]
      rfl
    rw [fields]
    show Value.map [(Value.rootField, (nestedValue bytes leaf).quiet)] =
      Value.map [(Value.rootField, tree.quiet)]
    rw [same]
  cases layout with
  | record _ _ => exact read
  | array _ _ _ => exact read
  | scalar kind => exact single (scalar kind) rfl size read
  | enum type => exact single (enum type) rfl size read
  | padding kind => cases valued

end Layout

namespace Blob

/-- **Decoding undoes encoding**: every tree of the shape of a layout can be made into a blob, with
one and the same outcome on each cache that is safe for the type, and the nested form of the blob
shows the tree. -/
theorem nestedTree_of_ofTree {compiler : Compiler} {type : DataType} {params : Params}
    {layout : Layout} {tree : Value} {cache : LayoutCache} (safe : cache.SafeFor type)
    (compiled : (runOn (compiler.cachedLayout params type) cache).1 = .ok layout)
    (names : ∀ name ∈ layout.fieldNames, Name.snake name = name)
    (unambiguous : layout.Unambiguous) (fits : layout.Fits tree) :
    ∃ blob, blob.layout = layout ∧ blob.nestedTree.quiet = (layout.shownAs tree).quiet ∧
      ∀ after : LayoutCache, after.SafeFor type →
        (runOn (cachedOfTree compiler type tree params) after).1 = .ok blob := by
  have buildable := safe.buildable
  rw [Compiler.runOn_cachedLayout safe] at compiled
  have formed := Layout.wellFormed_of_layout buildable compiled
  have valued := Layout.isPadding_of_layout compiled
  obtain ⟨out, written, read⟩ :=
    Layout.exists_write_of_fits layout ⟨formed, names, unambiguous⟩ valued tree fits
  have size := Layout.length_write (Layout.length_blank formed) written
  have made : ofTree compiler type tree params = .ok ⟨layout, out⟩ := by
    simp only [ofTree, layout_withInferred compiled, ok_bind, written]
    rfl
  refine ⟨⟨layout, out⟩, rfl, ?_, fun after safeAfter => ?_⟩
  · have whole : region ⟨layout, out⟩ = out := List.take_of_length_le (Nat.le_of_eq size)
    rw [nestedTree, whole]
    exact Layout.quiet_nestedTree valued size read
  · rw [runOn_cachedOfTree safeAfter, made]

end Blob

/-! ### The tree of a scene -/

namespace Scene

/-- An idle particle at one and a half steps up. -/
def particleTree : Value :=
  .map [("index", .int 0), ("state", .label "idle"), ("x", .float (.ofSingleBits 0)),
    ("y", .float (.ofSingleBits 0)), ("z", .float (.ofSingleBits 1069547520))]

/-- A scene with one particle. -/
def sceneTree : Value := .map [("frame", .int 3), ("particles", .list [particleTree])]

/-- The example particle fits its layout. -/
theorem fits_particleTree : particleLayout.Fits particleTree := by
  refine ⟨_, rfl, by decide, fun key => ?_, ?_⟩
  · simp [Layout.valueNames, Layout.isPadding, or_comm, or_left_comm]
  · refine ⟨fun _ => ⟨.int 0, rfl, by decide, rfl, rfl⟩, ?_⟩
    refine ⟨fun _ => ⟨.float (.ofSingleBits 0), rfl, Or.inr ⟨rfl, Or.inr ⟨_, rfl⟩⟩⟩, ?_⟩
    refine ⟨fun _ => ⟨.float (.ofSingleBits 0), rfl, Or.inr ⟨rfl, Or.inr ⟨_, rfl⟩⟩⟩, ?_⟩
    refine ⟨fun _ => ⟨.float (.ofSingleBits 1069547520), rfl, Or.inr ⟨rfl, Or.inr ⟨_, rfl⟩⟩⟩, ?_⟩
    exact ⟨(by simp [Layout.isPadding]), fun _ => ⟨.label "idle", rfl, Or.inr (by decide)⟩, trivial⟩

/-- The example scene fits its layout. -/
theorem fits_sceneTree : sceneLayout.Fits sceneTree := by
  refine ⟨_, rfl, by decide, fun key => ?_, ?_⟩
  · simp [Layout.valueNames, Layout.isPadding]
  · refine ⟨fun _ => ⟨.int 3, rfl, by decide, rfl, rfl⟩, ?_⟩
    refine ⟨fun _ => ⟨.list [particleTree], rfl, _, rfl, by decide, ?_⟩, trivial⟩
    intro i item found
    cases i with
    | zero =>
      cases found
      exact ⟨⟨0, rfl, rfl⟩, fits_particleTree⟩
    | succ i => cases found

/-- The keys of the example scene can be told apart. -/
theorem unambiguous_sceneLayout : sceneLayout.Unambiguous :=
  Layout.unambiguous_of_prefix (by decide)

end Scene

namespace Gantry

/-- A finger on no arm. -/
def gripsLayout : Layout := .array "Grips" 1 (.record "Grip" [("index", .scalar .int32)])

/-- A gantry in bytes, with each arm as it is. -/
def gantryLayout : Layout :=
  .record "Gantry" [
    ("left", .record "Arm" [("torque", .scalar .int32), ("pad", .scalar .int32),
      ("grips", gripsLayout)]),
    ("right", .record "Arm" [("key_roll_pass", .scalar .int32), ("grips", gripsLayout)])]

/-- A gantry without fingers. -/
def tree : Value :=
  .map [("left", .map [("grips", .list []), ("pad", .int 2), ("torque", .int 1)]),
    ("right", .map [("grips", .list []), ("key_roll_pass", .int 3)])]

/-- The layout of a gantry. -/
theorem layout_gantryType : (Compiler.mk .aligned 5000).layout gantryType params = .ok gantryLayout :=
  rfl

/-- The example gantry fits its layout. -/
theorem fits_tree : gantryLayout.Fits tree := by
  have grips : gripsLayout.Fits (.list []) := ⟨[], rfl, by decide, fun i item found => nomatch found⟩
  have number (n : Int64) (holds : Scalar.int32.Takes (.int n)) :
      (Layout.scalar .int32).Fits (.int n) := holds
  refine ⟨_, rfl, by decide, fun key => ?_, fun _ => ⟨_, rfl, ?_⟩, fun _ => ⟨_, rfl, ?_⟩, trivial⟩
  · simp [Layout.valueNames, Layout.isPadding]
  · refine ⟨_, rfl, by decide, fun key => ?_, fun _ => ⟨_, rfl, number 1 ⟨by decide, rfl, rfl⟩⟩,
      fun _ => ⟨_, rfl, number 2 ⟨by decide, rfl, rfl⟩⟩, fun _ => ⟨_, rfl, grips⟩, trivial⟩
    simp [Layout.valueNames, Layout.isPadding, gripsLayout, or_comm, or_left_comm]
  · refine ⟨_, rfl, by decide, fun key => ?_, fun _ => ⟨_, rfl, number 3 ⟨by decide, rfl, rfl⟩⟩,
      fun _ => ⟨_, rfl, grips⟩, trivial⟩
    simp [Layout.valueNames, Layout.isPadding, gripsLayout, or_comm]

end Gantry

namespace Blob

/-- A scene with a particle is read back from its blob, by a program with an empty cache. -/
theorem nestedTree_of_ofTree_scene :
    (Request.serveAll .empty Request.sceneHistory).SafeFor Scene.sceneType ∧
      (runOn ((Compiler.mk .aligned 5000).cachedLayout Scene.params Scene.sceneType)
        (Request.serveAll .empty Request.sceneHistory)).1 = .ok Scene.sceneLayout ∧
      (∀ name ∈ Scene.sceneLayout.fieldNames, Name.snake name = name) ∧
      Scene.sceneLayout.Unambiguous ∧ Scene.sceneLayout.Fits Scene.sceneTree ∧
      LayoutCache.empty.SafeFor Scene.sceneType ∧
      ∃ blob, (runOn (cachedOfTree (Compiler.mk .aligned 5000) Scene.sceneType Scene.sceneTree
          Scene.params) .empty).1 = .ok blob ∧ blob.layout = Scene.sceneLayout ∧
        blob.nestedTree.quiet = Scene.sceneTree.quiet := by
  have safe := LayoutCache.safeFor_sceneType
  have safeAfter := LayoutCache.safeFor_sceneType_empty
  have names : ∀ name ∈ Scene.sceneLayout.fieldNames, Name.snake name = name := by decide
  have compiled := (Compiler.runOn_cachedLayout safe).trans Scene.layout_sceneType
  obtain ⟨blob, same, read, made⟩ :=
    nestedTree_of_ofTree safe compiled names Scene.unambiguous_sceneLayout Scene.fits_sceneTree
  exact ⟨safe, compiled, names, Scene.unambiguous_sceneLayout, Scene.fits_sceneTree, safeAfter,
    blob, made _ safeAfter, same, read⟩

/-- A single value fits its layout, but it is not read back as itself.  And a gantry whose arms share
a name and a fingerprint is not made of its tree at all on an empty cache: its right arm has the
layout of the left one there. -/
theorem nestedTree_of_ofTree_int32_gantry :
    ((DataType.scalar .int32).Buildable ∧
      (Compiler.mk .aligned 5000).layout (.scalar .int32) ∅ = .ok (.scalar .int32) ∧
      (∀ name ∈ (Layout.scalar .int32).fieldNames, Name.snake name = name) ∧
      (Layout.scalar .int32).Unambiguous ∧ (Layout.scalar .int32).Fits (.int 5) ∧
      ∃ blob, (runOn (cachedOfTree (Compiler.mk .aligned 5000) (.scalar .int32) (.int 5) ∅)
          .empty).1 = .ok blob ∧ blob.nestedTree.quiet ≠ (Value.int 5).quiet) ∧
    (Gantry.gantryType.Buildable ∧
      (Compiler.mk .aligned 5000).layout Gantry.gantryType Gantry.params =
        .ok Gantry.gantryLayout ∧
      (∀ name ∈ Gantry.gantryLayout.fieldNames, Name.snake name = name) ∧
      Gantry.gantryLayout.Unambiguous ∧ Gantry.gantryLayout.Fits Gantry.tree ∧
      (runOn (cachedOfTree (Compiler.mk .aligned 5000) Gantry.gantryType Gantry.tree Gantry.params)
        .empty).1 = .error (.uninitializedField "Gantry" "right_torque")) := by
  constructor
  · have unambiguous : (Layout.scalar .int32).Unambiguous := by
      intro level mem array here isArray
      obtain rfl := List.mem_singleton.1 mem
      obtain rfl := List.mem_singleton.1 here
      cases isArray
    have resolved : Schema.toRegistry ⟨[]⟩ = .ok Registry.empty := rfl
    have safe : LayoutCache.empty.SafeFor (.scalar .int32) :=
      (LayoutCache.usedFor_empty _).safeFor resolved rfl
    exact ⟨.scalar .int32, rfl, by decide, unambiguous, ⟨by decide, rfl, rfl⟩,
      ⟨.scalar .int32, [5, 0, 0, 0]⟩, (runOn_cachedOfTree safe).trans rfl,
      fun same => Value.noConfusion same⟩
  · have refused : (runOn (cachedOfTree (Compiler.mk .aligned 5000) Gantry.gantryType Gantry.tree
        Gantry.params) .empty).1.map (fun _ => ()) =
          .error (.uninitializedField "Gantry" "right_torque") := by decide +kernel
    exact ⟨Gantry.buildable_gantryType, Gantry.layout_gantryType, by decide,
      Layout.unambiguous_of_prefix (by decide), Gantry.fits_tree, map_eq_error.1 refused⟩

end Blob

end DeviceBlob
