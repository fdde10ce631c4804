import DeviceBlob.Blob.Tree
import DeviceBlob.Proofs.Blob.Orderly
import DeviceBlob.Proofs.Tree.Entries

/-!
# The flat form of bytes

The flat form of some bytes has one entry for each place of their layout, without padding
(`flatAt_eq`).  If the layout is regular, the names of these entries are left as they are when the
form is taken for a tree again, so the tree is spread over the places (`Regular.spread_flatTree`):
whatever the bytes are, writing their flat form finds the value of each place.
-/

namespace DeviceBlob

/-! ### Values without parts -/

/-- A number that is read is a leaf. -/
theorem Scalar.leavesAt_read (kind : Scalar) (bytes : Bytes) (address : String) :
    (kind.read bytes).leavesAt address = [(address, kind.read bytes)] := by
  cases kind <;> rfl

/-- So is a label. -/
theorem EnumType.leavesAt_read (type : EnumType) (bytes : Bytes) (address : String) :
    (type.read bytes).leavesAt address = [(address, type.read bytes)] := rfl

namespace Layout

open SortedMap (Functional)

/-! ### The values of the places -/

/-- The elements of an array in flat form. -/
def flatItems (capacity : Nat) (element : Layout) (bytes : Bytes) : List Value :=
  (Slots.occupied capacity element bytes).map fun (_, content) =>
    Value.ofEntries (flatAt content "" 0 element)

/-- The value of a place in flat form. -/
def flatValue : Layout → Bytes → Value
  | scalar kind, bytes => kind.read bytes
  | enum type, bytes => type.read bytes
  | array _ capacity element, bytes => .list (flatItems capacity element bytes)
  | _, _ => .emptyMap

/-- The part that the flat form has for a place. -/
def partAt (bytes : Bytes) (place : Field) : Part :=
  ⟨place.name, place.content, place.content.flatValue (bytes.slice place.offset place.content.size)⟩

/-- The parts of the flat form for the places of a layout at an address and an offset. -/
def partsIn (bytes : Bytes) (address : String) (offset : Nat) (layout : Layout) : List Part :=
  ((placesAt address offset layout).filter (!·.content.isPadding)).map (partAt bytes)

/-- The parts of the flat form for the places of consecutive fields. -/
def fieldPartsIn (bytes : Bytes) (address : String) (offset : Nat)
    (fields : List (String × Layout)) : List Part :=
  ((placeAccessors address offset fields).filter (!·.content.isPadding)).map (partAt bytes)

/-- The parts of fields are those of the first one and those of the rest. -/
theorem fieldPartsIn_cons (bytes : Bytes) (address : String) (offset : Nat) (name : String)
    (layout : Layout) (rest : List (String × Layout)) :
    fieldPartsIn bytes address offset ((name, layout) :: rest) =
      partsIn bytes (Name.join address name) offset layout ++
        fieldPartsIn bytes address (offset + layout.size) rest := by
  rw [fieldPartsIn, placeAccessors, List.filter_append, List.map_append]
  rfl

mutual

/-- The flat form has the values of the places under their names. -/
theorem flatAt_eq (bytes : Bytes) : ∀ (layout : Layout) (address : String) (offset : Nat),
    flatAt bytes address offset layout =
      (partsIn bytes address offset layout).map fun part => (part.name, part.value)
  | scalar _, _, _ | enum _, _, _ | padding _, _, _ | array _ _ _, _, _ => rfl
  | record _ fields, address, offset => flatFields_eq bytes fields address offset

/-- So are those of consecutive fields. -/
theorem flatFields_eq (bytes : Bytes) : ∀ (fields : List (String × Layout)) (address : String)
    (offset : Nat), flatFields bytes address offset fields =
      (fieldPartsIn bytes address offset fields).map fun part => (part.name, part.value)
  | [], _, _ => rfl
  | (name, layout) :: rest, address, offset => by
    rw [flatFields, fieldPartsIn_cons, List.map_append, flatAt_eq bytes layout,
      flatFields_eq bytes rest]

end

/-- The flat form of everything but an array is a map. -/
theorem flatTree_eq {layout : Layout} (isArray : layout.isArray = false) (bytes : Bytes) :
    flatTree bytes layout = .ofEntries (flatAt bytes layout.rootAddress 0 layout) := by
  cases layout with
  | array name capacity element => cases isArray
  | _ => rfl

/-- The elements in the flat form of an array are those of its slots that are there, in order. -/
theorem flatItems_eq {element : Layout} (starts : element.StartsWithIndex) (capacity : Nat)
    (bytes : Bytes) : flatItems capacity element bytes =
      (Slots.present capacity element bytes).map fun slot =>
        flatTree (Slots.slot element bytes slot) element := by
  obtain ⟨name, rest, rfl⟩ := starts
  rw [flatItems, Slots.present_eq, Slots.occupied_eq, List.map_map]
  rfl

/-- Each item is the tree of a slot. -/
theorem getElem?_flatItems {element : Layout} (starts : element.StartsWithIndex) {capacity : Nat}
    {bytes : Bytes} {position : Nat} {item : Value}
    (found : (flatItems capacity element bytes)[position]? = some item) :
    position < capacity ∧ ∃ content, item = flatTree content element := by
  rw [flatItems_eq starts, List.getElem?_map, Option.map_eq_some_iff] at found
  obtain ⟨slot, listed, rfl⟩ := found
  have few := Slots.length_present_le capacity element bytes
  obtain ⟨inside, -⟩ := List.getElem?_eq_some_iff.1 listed
  exact ⟨by omega, _, rfl⟩

/-! ### Names of the entries -/

variable {layout : Layout} {bytes : Bytes}

/-- A part belongs to an accessor that is not padding. -/
theorem mem_partsIn {address : String} {offset : Nat} {part : Part}
    (mem : part ∈ partsIn bytes address offset layout) :
    ∃ place ∈ placesAt address offset layout, place.content.isPadding = false ∧
      part = partAt bytes place := by
  obtain ⟨place, kept, rfl⟩ := List.mem_map.1 mem
  obtain ⟨held, plain⟩ := List.mem_filter.1 kept
  exact ⟨place, held, by simpa using plain, rfl⟩

/-- The value of a place that is no array is a leaf. -/
theorem leavesAt_of_mem_partsIn {address : String} {offset : Nat} {part : Part}
    (mem : part ∈ partsIn bytes address offset layout) (plain : part.content.isArray = false)
    (outer : String) : part.value.leavesAt outer = [(outer, part.value)] := by
  obtain ⟨⟨name, offset, content⟩, held, valued, rfl⟩ := mem_partsIn mem
  cases content with
  | scalar kind => exact kind.leavesAt_read _ _
  | enum type => exact type.leavesAt_read _ _
  | padding kind => cases valued
  | record typeName fields => exact absurd rfl (content_of_mem_placesAt held typeName fields)
  | array typeName capacity element => cases plain

/-- The parts have names of accessors, in their order. -/
theorem names_partsIn_sublist (bytes : Bytes) (address : String) (offset : Nat) (layout : Layout) :
    ((partsIn bytes address offset layout).map (·.name)).Sublist
      ((placesAt address offset layout).map (·.name)) := by
  rw [partsIn, List.map_map]
  exact List.filter_sublist.map _

mutual

/-- Where the names of fields are in snake case, the names of places are. -/
theorem snake_of_mem_placesAt {place : Field} (valued : place.content.isPadding = false) :
    ∀ {layout : Layout} {address : String} {offset : Nat},
      (∀ name ∈ layout.fieldNames, Name.snake name = name) → Name.snake address = address →
        place ∈ placesAt address offset layout → Name.snake place.name = place.name
  | scalar _, _, _, _, fixed, mem | enum _, _, _, _, fixed, mem | padding _, _, _, _, fixed, mem
  | array _ _ _, _, _, _, fixed, mem => by
    simp only [placesAt, List.mem_singleton] at mem
    subst mem
    exact fixed
  | record _ _, _, _, names, fixed, mem => by
    refine snake_of_mem_placeAccessors valued (fun name layout mem plain => ?_)
      (fun name mem => names name (List.mem_append_right _ mem)) fixed mem
    exact names name (List.mem_append_left _ (mem_valueNames.2 ⟨layout, mem, plain⟩))

/-- So have those of consecutive fields. -/
theorem snake_of_mem_placeAccessors {place : Field} (valued : place.content.isPadding = false) :
    ∀ {fields : List (String × Layout)} {address : String} {offset : Nat},
      (∀ name layout, (name, layout) ∈ fields → layout.isPadding = false →
        Name.snake name = name) →
      (∀ name ∈ fieldNamesBelow fields, Name.snake name = name) → Name.snake address = address →
        place ∈ placeAccessors address offset fields → Name.snake place.name = place.name
  | [], _, _, _, _, _, mem => absurd mem List.not_mem_nil
  | (name, layout) :: rest, address, offset, own, below, fixed, mem => by
    rcases List.mem_append.1 mem with mem | mem
    · cases padded : layout.isPadding with
      | true =>
        cases layout <;> cases padded
        simp only [placesAt, List.mem_singleton] at mem
        subst mem
        cases valued
      | false =>
        have here := own name layout List.mem_cons_self padded
        exact snake_of_mem_placesAt valued (fun name mem => below name (List.mem_append_left _ mem))
          (Name.snake_join_of_fixed fixed here) mem
    · exact snake_of_mem_placeAccessors valued
        (fun name layout mem => own name layout (List.mem_cons_of_mem _ mem))
        (fun name mem => below name (List.mem_append_right _ mem)) fixed mem

end

/-- The address of the whole is in snake case. -/
theorem snake_rootAddress (layout : Layout) :
    Name.snake layout.rootAddress = layout.rootAddress := by
  have root : Name.snake Value.rootField = Value.rootField := by decide
  cases layout with
  | record _ _ | array _ _ _ => rfl
  | _ => exact root

/-- The names in the flat form of a regular layout are those of its places, in snake case. -/
theorem name_of_mem_flatAt (regular : layout.Regular) {name : String}
    (mem : name ∈ (flatAt bytes layout.rootAddress 0 layout).map (·.1)) :
    Name.snake name = name ∧ ∃ place ∈ layout.places, place.name = name := by
  rw [flatAt_eq, List.map_map, List.mem_map] at mem
  obtain ⟨part, among, rfl⟩ := mem
  obtain ⟨place, held, valued, rfl⟩ := mem_partsIn among
  exact ⟨snake_of_mem_placesAt valued regular.names (snake_rootAddress layout) held,
    place, held, rfl⟩

/-- No name comes twice in a flattened tree. -/
theorem nodup_flatAt (separate : layout.Separate) :
    ((flatAt bytes layout.rootAddress 0 layout).map (·.1)).Nodup := by
  rw [flatAt_eq, List.map_map]
  exact separate.names.sublist (names_partsIn_sublist bytes layout.rootAddress 0 layout)

/-! ### The tree of the flat form -/

/-- The leaves of a map are those of its entries, if their names are in snake case. -/
theorem mem_leaves_ofEntries {entries : List (String × Value)} (nodup : (entries.map (·.1)).Nodup)
    (fixed : ∀ name ∈ entries.map (·.1), Name.snake name = name) {entry : String × Value} :
    entry ∈ (Value.ofEntries entries).leaves ↔
      ∃ name value, (name, value) ∈ entries ∧ entry ∈ value.leavesAt name := by
  have held : ∀ name value, (name, value) ∈ (SortedMap.ofList entries).entries ↔
      (name, value) ∈ entries := by
    intro name value
    rw [← SortedMap.get?_eq_some_iff, SortedMap.get?_ofList_eq_some_iff nodup]
  rw [Value.ofEntries, Value.leaves, Value.mem_entryLeaves]
  constructor
  · rintro ⟨name, value, mem, leaf⟩
    have mem := (held name value).1 mem
    rw [Name.join_empty, fixed name (List.mem_map_of_mem mem)] at leaf
    exact ⟨name, value, mem, leaf⟩
  · rintro ⟨name, value, mem, leaf⟩
    refine ⟨name, value, (held name value).2 mem, ?_⟩
    rwa [Name.join_empty, fixed name (List.mem_map_of_mem mem)]

/-- The slots of all arrays have numbers that can be read. -/
def Numbered (layout : Layout) : Prop :=
  ∃ parent, ∀ entry ∈ layout.capacitiesUnder parent, entry.2 < 18446744073709551616

/-- The slots of an array have numbers that can be read, and so have those in its elements. -/
theorem Numbered.array (numbered : layout.Numbered) {place : Field} {name : String} {capacity : Nat}
    {element : Layout} (mem : place ∈ layout.places)
    (content : place.content = array name capacity element) :
    capacity < 18446744073709551616 ∧ element.Numbered := by
  obtain ⟨parent, small⟩ := numbered
  obtain ⟨way, leads, -, -⟩ := mem_placesAt_iff.1 mem
  obtain ⟨under, among⟩ := leads.reaches.contains.capacitiesUnder_subset parent
  rw [content] at among
  exact ⟨small _ (among List.mem_cons_self), _,
    fun entry held => small entry (among (List.mem_cons_of_mem _ held))⟩

/-- The capacities of a type are 64-bit integers, so the numbers of its slots can be read. -/
theorem numbered_of_layout {compiler : Compiler} {type : DataType} {params : Params}
    (buildable : type.Buildable)
    (compiled : compiler.layout type params = .ok layout) : layout.Numbered := by
  refine ⟨"", ?_⟩
  rintro ⟨name, capacity⟩ mem
  obtain ⟨-, -, value⟩ := capacity_of_layout buildable compiled mem
  have small := (Int64.ofNat capacity).toInt_lt
  omega

/-- What an element has in flat form can be taken back into a slot. -/
theorem isItem_flatTree (starts : layout.StartsWithIndex) (regular : layout.Regular) {slot : Nat}
    (small : slot < 18446744073709551616) (functional : Functional (flatTree bytes layout).leaves) :
    IsItem slot (flatTree bytes layout) := by
  refine ⟨small, functional, fun address => ?_⟩
  obtain ⟨typeName, rest, rfl⟩ := starts
  refine Value.entryLeaves_under address fun name mem => ?_
  obtain ⟨⟨_, value⟩, held, rfl⟩ := List.mem_map.1 mem
  have among := SortedMap.mem_of_get?_ofList (SortedMap.get?_eq_some_iff.2 held)
  obtain ⟨fixed, place, there, rfl⟩ :=
    @name_of_mem_flatAt _ bytes regular _ (List.mem_map_of_mem among)
  rw [fixed]
  exact name_of_mem_placeAccessors regular.wellFormed.1 there

/-- The leaves of the flat form are those of its parts. -/
theorem mem_leaves_flatTree (regular : layout.Regular) {entry : String × Value} :
    entry ∈ (flatTree bytes layout).leaves ↔ ∃ part ∈ partsIn bytes layout.rootAddress 0 layout,
      entry ∈ part.value.leavesAt part.name := by
  cases isArray : layout.isArray with
  | true =>
    obtain ⟨name, capacity, element, rfl⟩ := isArray_iff.1 isArray
    have whole : flatItems capacity element (bytes.slice 0 (array name capacity element).size) =
        flatItems capacity element bytes := by
      rw [flatItems, Slots.occupied_slice]
      rfl
    have only : partsIn bytes "" 0 (array name capacity element) =
        [⟨"", array name capacity element, .list (flatItems capacity element bytes)⟩] := by
      rw [← whole]
      rfl
    rw [rootAddress, only]
    simp only [List.mem_singleton, exists_eq_left]
    exact Iff.rfl
  | false =>
    rw [flatTree_eq isArray, mem_leaves_ofEntries (nodup_flatAt regular.separate)
      fun name mem => (name_of_mem_flatAt regular mem).1, flatAt_eq]
    simp only [List.mem_map, Prod.mk.injEq]
    constructor
    · rintro ⟨_, _, ⟨part, among, rfl, rfl⟩, leaf⟩
      exact ⟨part, among, leaf⟩
    · rintro ⟨part, among, leaf⟩
      exact ⟨_, _, ⟨part, among, rfl, rfl⟩, leaf⟩

/-- The flat form of any bytes is spread over the places of their layout. -/
theorem Regular.spread_flatTree (layout : Layout) : layout.Regular → layout.Numbered →
    ∀ bytes, Spread layout (partsIn bytes layout.rootAddress 0 layout) (flatTree bytes layout) := by
  -- Level by level: that no two leaves of an element have one name is known from the level below.
  induction layout using induction_on_elements with
  | step layout ih =>
    intro regular numbered bytes
    refine ⟨names_partsIn_sublist bytes layout.rootAddress 0 layout, ?_, ?_, ?_,
      fun _ => mem_leaves_flatTree regular⟩
    · intro part mem
      obtain ⟨place, held, -, rfl⟩ := mem_partsIn mem
      exact ⟨place, held, rfl, rfl⟩
    · intro part mem plain
      exact leavesAt_of_mem_partsIn mem plain _
    · intro part mem isArray
      obtain ⟨⟨name, offset, content⟩, held, -, rfl⟩ := mem_partsIn mem
      obtain ⟨typeName, capacity, element, rfl⟩ := isArray_iff.1 isArray
      obtain ⟨regular', starts⟩ := regular.element held rfl
      obtain ⟨small, numbered'⟩ := numbered.array held rfl
      refine ⟨_, rfl, fun slot item found => ?_⟩
      obtain ⟨inside, content, rfl⟩ := getElem?_flatItems starts found
      have below := ih _ held typeName capacity element rfl regular' numbered' content
      exact isItem_flatTree starts regular' (by omega) (below.functional regular'.separate)

end Layout

end DeviceBlob
