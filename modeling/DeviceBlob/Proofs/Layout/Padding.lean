import DeviceBlob.LinkedList
import DeviceBlob.Proofs.Layout.Cache
import DeviceBlob.Proofs.Layout.Parameters
import DeviceBlob.Proofs.Layout.Path
import DeviceBlob.Proofs.Layout.Words
import DeviceBlob.Proofs.VectorRun
import Mathlib.Algebra.BigOperators.Ring.List
import Mathlib.Algebra.Ring.Nat

/-!
# What padding adds to a layout

Where a type has a layout with padding it also has one without: the same layout with the padding
left out at every depth (`place_unaligned`).  Nothing else is between the two.  The accessors keep
their names and their order (`contents_unpadded`), the fields of every record stay what they are,
with padding behind vectors of three components only (`spaced_of_place`), and the sizes differ by
the padding in all elements of all arrays (`size_eq_unpadded_add`).
-/

namespace DeviceBlob.Layout

/-! ### Layouts without their padding -/

mutual

/-- The layout with the padding of its records left out, at any depth. -/
def unpadded : Layout → Layout
  | scalar kind => scalar kind
  | enum type => enum type
  | padding kind => padding kind
  | record name fields => record name (unpaddedFields fields)
  | array name capacity element => array name capacity (unpadded element)

/-- Consecutive fields with padding left out, between them and inside. -/
def unpaddedFields : List (String × Layout) → List (String × Layout)
  | [] => []
  | (name, layout) :: rest =>
    if layout.isPadding then unpaddedFields rest
    else (name, unpadded layout) :: unpaddedFields rest

end

/-- What the accessors are called and what they hold. -/
def contents (layout : Layout) : List (String × Layout) :=
  layout.accessors.map fun place => (place.name, place.content)

mutual

/-- The padding of a layout at any depth, each with the capacities of the arrays around it. -/
def paddings : Layout → List (List Nat × Scalar)
  | scalar _ => []
  | enum _ => []
  | padding kind => [([], kind)]
  | record _ fields => fieldPaddings fields
  | array _ capacity element =>
    (paddings element).map fun (around, kind) => (capacity :: around, kind)

/-- The padding between and inside consecutive fields. -/
def fieldPaddings : List (String × Layout) → List (List Nat × Scalar)
  | [] => []
  | (_, layout) :: rest => paddings layout ++ fieldPaddings rest

end

/-- The bytes of padding in all elements of the arrays around it. -/
def paddingSize (paddings : List (List Nat × Scalar)) : Nat :=
  (paddings.map fun (around, kind) => around.prod * kind.width).sum

/-- Padding is left out. -/
theorem unpaddedFields_cons_of_padding {layout : Layout} (h : layout.isPadding = true)
    (name : String) (rest : List (String × Layout)) :
    unpaddedFields ((name, layout) :: rest) = unpaddedFields rest := by
  rw [unpaddedFields, if_pos h]

/-- A field with a value is kept. -/
theorem unpaddedFields_cons_of_value {layout : Layout} (h : layout.isPadding = false)
    (name : String) (rest : List (String × Layout)) :
    unpaddedFields ((name, layout) :: rest) = (name, layout.unpadded) :: unpaddedFields rest := by
  rw [unpaddedFields, if_neg (by simp [h])]

/-- The layouts of padding are padding. -/
theorem isPadding_iff {layout : Layout} :
    layout.isPadding = true ↔ ∃ kind, layout = padding kind := by
  cases layout <;> simp [isPadding]

/-- A field with a value is among the fields that are kept. -/
theorem mem_unpaddedFields {name : String} {layout : Layout} (value : layout.isPadding = false) :
    ∀ {fields : List (String × Layout)}, (name, layout) ∈ fields →
      (name, layout.unpadded) ∈ unpaddedFields fields
  | [], mem => absurd mem List.not_mem_nil
  | (other, first) :: rest, mem => by
    by_cases padded : first.isPadding = true
    · rw [unpaddedFields_cons_of_padding padded]
      rcases List.mem_cons.1 mem with same | behind
      · cases same
        rw [value] at padded
        cases padded
      · exact mem_unpaddedFields value behind
    · rw [unpaddedFields_cons_of_value (Bool.eq_false_iff.2 padded)]
      rcases List.mem_cons.1 mem with same | behind
      · cases same
        exact List.mem_cons_self
      · exact List.mem_cons_of_mem _ (mem_unpaddedFields value behind)

/-- A part with a value is there also without the padding. -/
theorem HasPart.unpadded {layout inner : Layout} {path : List PathStep}
    (reaches : layout.HasPart path inner) (value : inner.isPadding = false) :
    layout.unpadded.HasPart path inner.unpadded := by
  induction reaches with
  | here layout => exact .here _
  | @field name fields field path inner mem below ih =>
    have kept : field.2.isPadding = false := by
      obtain ⟨label, content⟩ := field
      cases content with
      | padding kind =>
        -- A path ends in padding.
        cases below
        exact value
      | _ => rfl
    rw [Layout.unpadded]
    exact @HasPart.field name _ (field.1, field.2.unpadded) path _
      (mem_unpaddedFields kept mem) (ih value)
  | element below ih => exact .element (ih value)

/-! ### Accessors -/

mutual

/-- A part keeps its accessors, with other offsets. -/
theorem contents_placesAt (address : String) (offset other : Nat) : ∀ {layout : Layout},
    layout.isPadding = false →
      (placesAt address other layout.unpadded).map (fun place => (place.name, place.content)) =
        ((placesAt address offset layout).filter fun place => !place.content.isPadding).map
          fun place => (place.name, place.content.unpadded)
  | scalar _, _ | enum _, _ | array _ _ _, _ => rfl
  | padding _, value => nomatch value
  | record _ fields, _ => contents_placeAccessors address offset other fields

/-- Consecutive fields keep their accessors, with other offsets. -/
theorem contents_placeAccessors (address : String) :
    ∀ (offset other : Nat) (fields : List (String × Layout)),
      (placeAccessors address other (unpaddedFields fields)).map
          (fun place => (place.name, place.content)) =
        ((placeAccessors address offset fields).filter fun place => !place.content.isPadding).map
          fun place => (place.name, place.content.unpadded)
  | _, _, [] => rfl
  | offset, other, (name, layout) :: rest => by
    rw [placeAccessors, List.filter_append, List.map_append]
    by_cases padded : layout.isPadding = true
    · obtain ⟨kind, rfl⟩ := isPadding_iff.1 padded
      rw [unpaddedFields_cons_of_padding padded, contents_placeAccessors address _ other rest]
      rfl
    · have value := Bool.eq_false_iff.2 padded
      rw [unpaddedFields_cons_of_value value, placeAccessors, List.map_append,
        contents_placesAt _ offset other value, contents_placeAccessors address _ _ rest]

end

/-- Without padding the accessors have the same names in the same order, and they hold what they
held, without padding. -/
theorem contents_unpadded {layout : Layout} (value : layout.isPadding = false) :
    layout.unpadded.contents =
      (layout.accessors.filter fun place => !place.content.isPadding).map
        fun place => (place.name, place.content.unpadded) := by
  cases layout with
  | record name fields => exact contents_placeAccessors "" 0 0 fields
  | padding kind => cases value
  | _ => rfl

/-! ### Sizes -/

/-- The padding of two lists is that of both together. -/
theorem paddingSize_append (front back : List (List Nat × Scalar)) :
    paddingSize (front ++ back) = paddingSize front + paddingSize back := by
  rw [paddingSize, List.map_append, List.sum_append]
  rfl

/-- The padding in an element counts as often as there is room for elements. -/
theorem paddingSize_map_cons (capacity : Nat) (paddings : List (List Nat × Scalar)) :
    paddingSize (paddings.map fun (around, kind) => (capacity :: around, kind)) =
      capacity * paddingSize paddings := by
  rw [paddingSize, List.map_map]
  refine Eq.trans (congrArg List.sum (List.map_congr_left fun entry _ => ?_))
    (List.sum_map_mul_left paddings (fun (around, kind) => around.prod * kind.width) capacity)
  exact (congrArg (· * _) List.prod_cons).trans (Nat.mul_assoc _ _ _)

mutual

/-- A layout is as big as it is without padding, and its padding. -/
theorem size_eq_unpadded_add : ∀ {layout : Layout}, layout.WellFormed → layout.isPadding = false →
    layout.size = layout.unpadded.size + paddingSize layout.paddings
  | scalar _, _, _ | enum _, _, _ => rfl
  | padding _, _, value => nomatch value
  | record _ _, formed, _ => fieldsSize_eq_unpadded_add formed.1
  | array name capacity element, formed, _ => by
    have below := size_eq_unpadded_add formed.2 formed.1.isPadding
    rw [unpadded, size_array, size_array, below, paddings, paddingSize_map_cons, Nat.mul_add,
      Nat.add_assoc]

/-- So are consecutive fields. -/
theorem fieldsSize_eq_unpadded_add : ∀ {fields : List (String × Layout)}, FieldsWellFormed fields →
    fieldsSize fields = fieldsSize (unpaddedFields fields) + paddingSize (fieldPaddings fields)
  | [], _ => rfl
  | (name, layout) :: rest, formed => by
    have behind := fieldsSize_eq_unpadded_add formed.2.2
    rw [fieldsSize_cons, fieldPaddings, paddingSize_append]
    by_cases padded : layout.isPadding = true
    · obtain ⟨kind, rfl⟩ := isPadding_iff.1 padded
      have here : paddingSize (padding kind).paddings = kind.width := by
        simp [paddings, paddingSize]
      rw [unpaddedFields_cons_of_padding padded, here, behind, size_padding]
      omega
    · have value := Bool.eq_false_iff.2 padded
      have here := size_eq_unpadded_add formed.2.1 value
      rw [unpaddedFields_cons_of_value value, fieldsSize_cons, here, behind]
      dsimp only
      omega

end

/-! ### Both layouts of a type -/

/-- Fields behind others are kept or left out as they are alone. -/
theorem unpaddedFields_append : ∀ (front back : List (String × Layout)),
    unpaddedFields (front ++ back) = unpaddedFields front ++ unpaddedFields back
  | [], _ => rfl
  | (name, layout) :: rest, back => by
    have behind := unpaddedFields_append rest back
    rw [List.cons_append]
    by_cases padded : layout.isPadding = true
    · rw [unpaddedFields_cons_of_padding padded, unpaddedFields_cons_of_padding padded, behind]
    · have value := Bool.eq_false_iff.2 padded
      rw [unpaddedFields_cons_of_value value, unpaddedFields_cons_of_value value, behind]
      rfl

/-- Nothing is left of the padding behind a field. -/
theorem unpaddedFields_paddingBehind (runs : List VectorRun) (position : Nat) :
    unpaddedFields (paddingBehind runs position) = [] := by
  unfold paddingBehind
  cases runs.find? (·.last = position) <;> rfl

/-- Without padding the names of the accessors stay different. -/
theorem nodup_unpadded {fields : List (String × Layout)}
    (nodup : ((placeAccessors "" 0 fields).map (·.name)).Nodup) :
    ((placeAccessors "" 0 (unpaddedFields fields)).map (·.name)).Nodup := by
  have same := congrArg (List.map (·.1)) (contents_placeAccessors "" 0 0 fields)
  rw [List.map_map, List.map_map] at same
  have names : (placeAccessors "" 0 (unpaddedFields fields)).map (·.name) =
      ((placeAccessors "" 0 fields).filter fun place => !place.content.isPadding).map (·.name) :=
    same
  rw [names]
  exact nodup.sublist (List.filter_sublist.map _)

mutual

/-- A type with a layout with padding has the same layout without. -/
theorem place_unaligned : ∀ {type : DataType} {params : Params} {layout : Layout},
    place .aligned params type = .ok layout → place .unaligned params type = .ok layout.unpadded
  | .scalar _, _, _, placed | .enum _, _, _, placed => by
    cases placed
    rfl
  | .record _ _, _, _, placed => by
    obtain ⟨parts, all, nodup, rfl⟩ := place_record_eq_ok_iff.1 placed
    exact place_record_eq_ok_iff.2
      ⟨_, placeAll_unaligned 0 all, nodup_unpadded nodup, by rw [unpadded]⟩
  | .array _ _, _, _, placed => by
    obtain ⟨capacity, item, found, below, rfl⟩ := place_array_eq_ok_iff.1 placed
    exact place_array_eq_ok_iff.2
      ⟨capacity, item.unpadded, found, place_unaligned below, by rw [unpadded]⟩

/-- So have consecutive fields. -/
theorem placeAll_unaligned {runs : List VectorRun} : ∀ {fields : List (String × DataType)}
    {params : Params} {parts : List (String × Layout)} (position : Nat),
      placeAll .aligned params runs position fields = .ok parts →
        placeAll .unaligned params [] position fields = .ok (unpaddedFields parts)
  | [], _, _, _, placed => by
    cases placed
    rfl
  | (name, type) :: rest, _, _, position, placed => by
    obtain ⟨layout, others, here, there, rfl⟩ := placeAll_cons_eq_ok_iff.1 placed
    refine placeAll_cons_eq_ok_iff.2
      ⟨_, _, place_unaligned here, placeAll_unaligned (position + 1) there, ?_⟩
    rw [unpaddedFields_cons_of_value (isPadding_of_place here), unpaddedFields_append,
      unpaddedFields_paddingBehind]
    rfl

end

/-! ### Where padding stands -/

/-- These are the parts behind the field at a position that belong there: one scalar of padding of
the kind of the components if the field is the last of a vector of three, and else none. -/
def BelongsBehind (fields : List (String × DataType)) (position : Nat)
    (behind : List (String × Layout)) : Prop :=
  (∀ run : VectorRun, run.Maximal fields → run.length = 3 → run.last = position →
    behind = [(run.paddingName, padding run.kind)]) ∧
  ((∀ run : VectorRun, run.Maximal fields → run.length = 3 → run.last ≠ position) → behind = [])

/-- The parts of a record are the layouts of its fields in order, from a position on, with the
padding that belongs behind each. -/
inductive Spaced (packing : Packing) (fields : List (String × DataType)) :
    Nat → List (String × DataType) → List (String × Layout) → Prop
  | nil (position : Nat) : Spaced packing fields position [] []
  | cons {position : Nat} {name : String} {type : DataType} {params : Params} {layout : Layout}
      {rest : List (String × DataType)} {behind others : List (String × Layout)}
      (here : place packing params type = .ok layout)
      (padding : BelongsBehind fields position behind)
      (there : Spaced packing fields (position + 1) rest others) :
      Spaced packing fields position ((name, type) :: rest) ((name, layout) :: (behind ++ others))

/-- What is put behind a field belongs there. -/
theorem belongsBehind_paddingBehind (fields : List (String × DataType)) (position : Nat) :
    BelongsBehind fields position
      (paddingBehind (VectorRun.padded .aligned fields) position) := by
  unfold paddingBehind
  cases found : (VectorRun.padded .aligned fields).find? (·.last = position) with
  | none =>
    rw [List.find?_eq_none] at found
    refine ⟨?_, fun _ => rfl⟩
    intro run maximal three last
    have absent := found run (VectorRun.mem_padded_iff.2 ⟨maximal, three⟩)
    simp only [last, decide_true, not_true] at absent
  | some run =>
    obtain ⟨maximal, three⟩ := VectorRun.mem_padded_iff.1 (List.mem_of_find?_eq_some found)
    have last : run.last = position := by simpa using List.find?_some found
    refine ⟨?_, fun none => absurd last (none run maximal three)⟩
    intro other maximal' _ last'
    rw [maximal.eq_of_last maximal' (last.trans last'.symm)]

/-- Consecutive fields are laid out with the padding that belongs behind each. -/
theorem spaced_of_placeAll {all : List (String × DataType)} {params : Params} :
    ∀ {fields : List (String × DataType)} {parts : List (String × Layout)} (position : Nat),
      placeAll .aligned params (VectorRun.padded .aligned all) position fields = .ok parts →
        Spaced .aligned all position fields parts
  | [], _, position, placed => by
    cases placed
    exact .nil position
  | (name, type) :: rest, _, position, placed => by
    obtain ⟨layout, others, here, there, rfl⟩ := placeAll_cons_eq_ok_iff.1 placed
    exact .cons here (belongsBehind_paddingBehind all position) (spaced_of_placeAll _ there)

/-- In the layout of a record padding stands behind vectors of three components only. -/
theorem spaced_of_place {name : String} {type : DataType} {params : Params}
    {parts : List (String × Layout)}
    (placed : place .aligned params type = .ok (record name parts)) :
    ∃ fields, type = .record name fields ∧ Spaced .aligned fields 0 fields parts := by
  cases type with
  | record _ fields =>
    obtain ⟨_, all, -, same⟩ := place_record_eq_ok_iff.1 placed
    cases same
    exact ⟨fields, rfl, spaced_of_placeAll 0 all⟩
  | scalar kind => cases placed
  | enum type => cases placed
  | array inner element =>
    obtain ⟨capacity, item, -, -, same⟩ := place_array_eq_ok_iff.1 placed
    cases same

open LayoutCache (Request runOn)

/-- **Alignment only adds padding.**  If a type has layouts of both packings, from caches that are
safe for it, the unaligned one is the aligned one with its padding left out.  So at every depth the
accessors have the same names in the same order and hold the same, apart from padding; each record
consists of its fields with padding behind vectors of three components; and the aligned layout is
bigger by its padding, counted for each element that the arrays around it have room for.  Below 2^64
bytes the sizes that are kept in words differ by that as well. -/
theorem alignment_adds_padding {type : DataType} {params : Params} {max other : Nat}
    {aligned unaligned : Layout} {cache after : LayoutCache} (safe : cache.SafeFor type)
    (safeAfter : after.SafeFor type)
    (compiled : (runOn ((Compiler.mk .aligned max).cachedLayout params type) cache).1 =
      .ok aligned)
    (compiled' : (runOn ((Compiler.mk .unaligned other).cachedLayout params type) after).1 =
      .ok unaligned)
    (fits : aligned.size < 18446744073709551616) :
    unaligned.contents =
      ((aligned.accessors.filter fun place => !place.content.isPadding).map
        fun place => (place.name, place.content.unpadded)) ∧
    unaligned = aligned.unpadded ∧
    (∀ path inner, aligned.HasPart path inner → inner.isPadding = false →
      unaligned.HasPart path inner.unpadded ∧
        inner.unpadded.contents =
          (inner.accessors.filter fun place => !place.content.isPadding).map
            fun place => (place.name, place.content.unpadded)) ∧
    (∀ path name parts, aligned.HasPart path (.record name parts) →
      ∃ fields, type.HasPart path (.record name fields) ∧
        Spaced .aligned fields 0 fields parts) ∧
    aligned.size = unaligned.size + paddingSize aligned.paddings ∧
    aligned.wordSize.toNat = unaligned.wordSize.toNat + paddingSize aligned.paddings := by
  have buildable := safe.buildable
  rw [Compiler.runOn_cachedLayout safe] at compiled
  rw [Compiler.runOn_cachedLayout safeAfter] at compiled'
  rw [Compiler.layout_eq_place buildable (Compiler.range_of_layout compiled)] at compiled
  rw [Compiler.layout_eq_place buildable (Compiler.range_of_layout compiled')] at compiled'
  have value := isPadding_of_place compiled
  have same : unaligned = aligned.unpadded :=
    Except.ok.inj (compiled'.symm.trans (place_unaligned compiled))
  subst same
  have size := size_eq_unpadded_add (wellFormed_of_place buildable compiled) value
  refine ⟨contents_unpadded value, rfl, ?_, ?_, size, ?_⟩
  · intro path inner reaches kept
    exact ⟨reaches.unpadded kept, contents_unpadded kept⟩
  · intro path name parts reaches
    obtain ⟨_, part, there, placed⟩ := hasPart_of_place reaches compiled rfl
    obtain ⟨fields, rfl, spaced⟩ := spaced_of_place placed
    exact ⟨fields, there, spaced⟩
  · rw [toNat_wordSize fits, toNat_wordSize (by omega)]
    exact size

/-- A scene of two particles has four bytes of padding for each of them. -/
theorem alignment_adds_padding_scene :
    (Request.serveAll .empty Request.sceneHistory).SafeFor Scene.sceneType ∧
      LayoutCache.empty.SafeFor Scene.sceneType ∧
      (runOn ((Compiler.mk .aligned 5000).cachedLayout Scene.params Scene.sceneType)
        (Request.serveAll .empty Request.sceneHistory)).1 = .ok Scene.sceneLayout ∧
      (runOn ((Compiler.mk .unaligned 5000).cachedLayout Scene.params Scene.sceneType)
        .empty).1 = .ok Scene.sceneLayout.unpadded ∧
      Scene.sceneLayout.size < 18446744073709551616 ∧
      Scene.sceneLayout.paddings = [([2], .float32)] ∧
      Scene.sceneLayout.size = Scene.sceneLayout.unpadded.size + 8 := by
  have safe := LayoutCache.safeFor_sceneType
  have safeAfter := LayoutCache.safeFor_sceneType_empty
  have compiled := (Compiler.runOn_cachedLayout safe).trans Scene.layout_sceneType
  have compiled' : (runOn ((Compiler.mk .unaligned 5000).cachedLayout Scene.params Scene.sceneType)
      .empty).1 = .ok Scene.sceneLayout.unpadded :=
    (Compiler.runOn_cachedLayout safeAfter).trans rfl
  have fits : Scene.sceneLayout.size < 18446744073709551616 := by decide
  obtain ⟨-, -, -, -, size, -⟩ := alignment_adds_padding safe safeAfter compiled compiled' fits
  exact ⟨safe, safeAfter, compiled, compiled', fits, rfl, size⟩

/-! ### Where alignment does more -/

/-- A point of a grid, which has one byte of padding. -/
def dotType : DataType :=
  .record "Dot" [("index", .scalar .int32), ("x", .scalar .int8), ("y", .scalar .int8),
    ("z", .scalar .int8)]

/-- Points of a grid. -/
def dotsType : DataType := .array "Dots" dotType

/-- The document that declares points of a grid. -/
def dotsSchema : Schema where
  types := [.record "Dot" [⟨"index", "int32", none⟩, ⟨"x", "int8", none⟩, ⟨"y", "int8", none⟩,
    ⟨"z", "int8", none⟩], .array "Dots" "Dot"]

/-- The types of that document. -/
def dotsRegistry : Registry := ⟨[dotType, dotsType]⟩

/-- Room for 2^61 points. -/
def dotsParams : Params := .ofList [("capacity", 2305843009213693952)]

/-- A record that is called like the head of a list and has its fingerprint. -/
def namesakeType : DataType := .record "ListHead" [("east_tick_pull_gear", .scalar .int32)]

/-- A cache from which a list took the layout of its head. -/
def headCache : LayoutCache :=
  ((Request.plainLayout (.mk .aligned 5000) ListHead.type).serve .empty).2

/-- Aligned, 2^61 points have 2^64 + 8 bytes, which is 8 in a word, and so fewer than unaligned.  And
a record with the name and the fingerprint of a list's head gets other accessors aligned than
unaligned, where the cache holds the aligned layout of the head. -/
theorem alignment_changes_dots_namesake :
    (dotsSchema.toRegistry = .ok dotsRegistry ∧ dotsRegistry.Knows dotsType ∧
      (runOn ((Compiler.mk .aligned 2305843009213693952).cachedLayout dotsParams dotsType)
        .empty).1.map wordSize = .ok 8 ∧
      (runOn ((Compiler.mk .unaligned 2305843009213693952).cachedLayout dotsParams dotsType)
        .empty).1.map wordSize = .ok 16140901064495857672) ∧
    (namesakeType.Buildable ∧
      (runOn ((Compiler.mk .aligned 5000).cachedLayout ∅ namesakeType) headCache).1.map
        (fun layout => layout.accessors.map Field.name) = .ok ["first", "last", "count"] ∧
      (runOn ((Compiler.mk .unaligned 5000).cachedLayout ∅ namesakeType) headCache).1.map
        (fun layout => layout.accessors.map Field.name) = .ok ["east_tick_pull_gear"]) := by
  have built : DataType.ofFields "ListHead" [("east_tick_pull_gear", .scalar .int32)] =
      .ok namesakeType := rfl
  have buildable : namesakeType.Buildable := .record (by simp [DataType.Buildable.scalar]) built
  exact ⟨⟨rfl, rfl, by decide +kernel, by decide +kernel⟩, buildable, by decide +kernel,
    by decide +kernel⟩

end DeviceBlob.Layout
