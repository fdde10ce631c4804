import DeviceBlob.Blob.Difference
import DeviceBlob.Proofs.Blob.Codec
import DeviceBlob.Proofs.Blob.SlotNames
import DeviceBlob.Proofs.Layout.WellFormed

/-!
# Trees of the shape of a layout

A tree `Fits` a layout if it has the shape that reading a blob of that layout gives: a map with one
entry for each field, values of the kinds of the scalars, labels of the enums, and for an array a
list of maps that say their positions.  A layout is `Regular` if the names in it are in snake case
and can be told from the names of slots.

A layout and the elements of its arrays, at any depth, are its levels: each is written by itself,
so most proofs go level by level (`induction_on_elements`).
-/

namespace DeviceBlob

/-- The item of a map under a key; other values have none. -/
def Value.item? : Value → String → Option Value
  | map entries, key => entries.lookup key
  | _, _ => none

namespace Layout

/-! ### Shape -/

mutual

/-- The tree has the shape of the layout. -/
def Fits : Layout → Value → Prop
  | scalar kind, tree => kind.Takes tree
  | enum type, tree => type.Takes tree
  | padding _, _ => True
  | record _ fields, tree =>
    ∃ entries, tree = .map entries ∧ entries.Pairwise (fun a b => a.1 < b.1) ∧
      (∀ key, key ∈ entries.map (·.1) ↔ key ∈ valueNames fields) ∧ FieldsFit fields tree
  | array _ capacity element, tree =>
    ∃ items, tree = .list items ∧ items.length ≤ capacity ∧
      ∀ (i : Nat) (item : Value), items[i]? = some item →
        (∃ n : Int64, item.item? DataType.indexField = some (.int n) ∧ n.toInt = i) ∧
          Fits element item

/-- The map has an entry of the right shape for each field that has a value. -/
def FieldsFit : List (String × Layout) → Value → Prop
  | [], _ => True
  | (name, layout) :: rest, tree =>
    (layout.isPadding = false → ∃ item, tree.item? name = some item ∧ Fits layout item) ∧
      FieldsFit rest tree

end

/-- What a tree has for a field: its entry, if there is one. -/
def fieldOf (tree : Value) (name : String) : Value := (tree.item? name).getD .emptyMap

/-- An entry of that name is the field. -/
theorem fieldOf_of_entry {tree item : Value} {name : String} (h : tree.item? name = some item) :
    fieldOf tree name = item := by
  rw [fieldOf, h, Option.getD_some]

/-- What a fitting map has for its first field has the shape of it. -/
theorem FieldsFit.head {name : String} {layout : Layout} {rest : List (String × Layout)}
    {tree : Value} (fit : FieldsFit ((name, layout) :: rest) tree) :
    Fits layout (fieldOf tree name) := by
  cases padded : layout.isPadding with
  | true =>
    cases layout <;> cases padded
    trivial
  | false =>
    obtain ⟨item, found, fits⟩ := fit.1 padded
    rwa [fieldOf_of_entry found]

/-! ### Names -/

mutual

/-- The names of the fields that have a value, at any depth. -/
def fieldNames : Layout → List String
  | record _ fields => valueNames fields ++ fieldNamesBelow fields
  | array _ _ element => fieldNames element
  | _ => []

/-- The names of the fields below consecutive fields. -/
def fieldNamesBelow : List (String × Layout) → List String
  | [] => []
  | (_, layout) :: rest => fieldNames layout ++ fieldNamesBelow rest

end

mutual

/-- The elements of the arrays in a layout, at any depth. -/
def elements : Layout → List Layout
  | record _ fields => elementsOfFields fields
  | array _ _ element => element :: elements element
  | _ => []

/-- The elements of the arrays in consecutive fields, at any depth. -/
def elementsOfFields : List (String × Layout) → List Layout
  | [] => []
  | (_, layout) :: rest => elements layout ++ elementsOfFields rest

end

/-- On no level there is an accessor with the name of a slot of an array, or of something in it. -/
def Unambiguous (layout : Layout) : Prop :=
  ∀ level ∈ layout :: layout.elements, ∀ array ∈ level.accessors, array.content.isArray = true →
    ∀ other ∈ level.accessors, ¬IsSlotName array.name other.name

/-- If no accessor's name goes on where that of an array of its level ends, none has that of a
slot. -/
theorem unambiguous_of_prefix {layout : Layout} (apart : ∀ level ∈ layout :: layout.elements,
    ∀ array ∈ level.accessors, array.content.isArray = true → ∀ other ∈ level.accessors,
      array.name.toList.isPrefixOf other.name.toList = true → other.name = array.name) :
    layout.Unambiguous := by
  intro level mem array here isArray other there slot
  have front : array.name.toList <+: other.name.toList := by
    obtain ⟨digits, -, same | ⟨rest, same⟩⟩ := slot
    · exact ⟨_, same.symm⟩
    · exact ⟨_, same.symm⟩
  have same := apart level mem array here isArray other there (List.isPrefixOf_iff_prefix.2 front)
  have longer := slot.length_lt
  rw [same] at longer
  omega

/-- The names in a layout are found again in the names of the entries of a flat tree. -/
structure Regular (layout : Layout) : Prop where
  /-- The layout is that of a type. -/
  wellFormed : layout.WellFormed
  /-- The names of fields are in snake case. -/
  names : ∀ name ∈ layout.fieldNames, Name.snake name = name
  /-- Slots cannot be taken for other places. -/
  unambiguous : layout.Unambiguous

/-! ### Levels -/

/-- The places of a whole blob. -/
def places (layout : Layout) : List Field := layout.placesAt layout.rootAddress 0

mutual

/-- An array among the places of a layout has its element on the level below. -/
theorem element_of_mem_placesAt {address : String} {place : Field} {name : String} {capacity : Nat}
    {element : Layout} (same : place.content = array name capacity element) :
    ∀ {layout : Layout} {offset : Nat}, place ∈ placesAt address offset layout →
      (layout.WellFormed → element.StartsWithIndex ∧ element.WellFormed) ∧
        element.fieldNames ⊆ layout.fieldNames ∧ element :: element.elements ⊆ layout.elements
  | scalar _, _, mem | enum _, _, mem | padding _, _, mem => by
    simp only [placesAt, List.mem_singleton] at mem
    subst mem
    cases same
  | array _ _ _, _, mem => by
    simp only [placesAt, List.mem_singleton] at mem
    subst mem
    cases same
    exact ⟨id, List.Subset.refl _, List.Subset.refl _⟩
  | record _ _, _, mem => by
    obtain ⟨formed, names, elements⟩ := element_of_mem_placeAccessors same mem
    exact ⟨fun h => formed h.1, List.Subset.trans names (List.subset_append_right _ _), elements⟩

/-- An array among the places of fields has a well-formed element, with its names among those below
them. -/
theorem element_of_mem_placeAccessors {address : String} {place : Field} {name : String}
    {capacity : Nat} {element : Layout} (same : place.content = array name capacity element) :
    ∀ {fields : List (String × Layout)} {offset : Nat},
      place ∈ placeAccessors address offset fields →
        (FieldsWellFormed fields → element.StartsWithIndex ∧ element.WellFormed) ∧
          element.fieldNames ⊆ fieldNamesBelow fields ∧
            element :: element.elements ⊆ elementsOfFields fields
  | [], _, mem => absurd mem List.not_mem_nil
  | (_, _) :: _, _, mem => by
    rcases List.mem_append.1 mem with mem | mem
    · obtain ⟨formed, names, elements⟩ := element_of_mem_placesAt same mem
      exact ⟨fun h => formed h.2.1, List.Subset.trans names (List.subset_append_left _ _),
        List.Subset.trans elements (List.subset_append_left _ _)⟩
    · obtain ⟨formed, names, elements⟩ := element_of_mem_placeAccessors same mem
      exact ⟨fun h => formed h.2.2, List.Subset.trans names (List.subset_append_right _ _),
        List.Subset.trans elements (List.subset_append_right _ _)⟩

end

section Element

variable {layout item : Layout} {place : Field} {name : String} {capacity : Nat}

/-- In the elements of the arrays slots cannot be taken for other places, if that is so in the
layout. -/
theorem Unambiguous.element (unambiguous : layout.Unambiguous) (mem : place ∈ layout.places)
    (same : place.content = array name capacity item) : item.Unambiguous := by
  obtain ⟨-, -, elements⟩ := element_of_mem_placesAt same mem
  intro level below
  exact unambiguous level (List.mem_cons_of_mem _ (elements below))

/-- The elements of the arrays of a regular layout are regular. -/
theorem Regular.element (regular : layout.Regular) (mem : place ∈ layout.places)
    (same : place.content = array name capacity item) :
    item.Regular ∧ item.StartsWithIndex := by
  obtain ⟨formed, names, -⟩ := element_of_mem_placesAt same mem
  obtain ⟨starts, wellFormed⟩ := formed regular.wellFormed
  exact ⟨⟨wellFormed, fun name held => regular.names name (names held),
    regular.unambiguous.element mem same⟩, starts⟩

end Element

mutual

/-- What follows for a layout from the elements of its arrays holds for the element of each array
in a layout. -/
theorem element_induction {P : Layout → Prop}
    (step : ∀ level, (∀ place ∈ level.places, ∀ name capacity element,
      place.content = array name capacity element → P element) → P level) :
    ∀ {layout : Layout} {address : String} {offset : Nat} {place : Field},
      place ∈ placesAt address offset layout → ∀ name capacity element,
        place.content = array name capacity element → P element
  | scalar _, _, _, _, mem, _, _, _, same | enum _, _, _, _, mem, _, _, _, same
  | padding _, _, _, _, mem, _, _, _, same => by
    simp only [placesAt, List.mem_singleton] at mem
    subst mem
    cases same
  | array _ _ element, _, _, _, mem, _, _, _, same => by
    simp only [placesAt, List.mem_singleton] at mem
    subst mem
    cases same
    exact step element fun place below => element_induction step below
  | record _ _, _, _, _, mem, _, _, _, same => fields_induction step mem _ _ _ same

/-- What passes from the arrays of a level to the level holds of all elements below fields. -/
theorem fields_induction {P : Layout → Prop}
    (step : ∀ level, (∀ place ∈ level.places, ∀ name capacity element,
      place.content = array name capacity element → P element) → P level) :
    ∀ {fields : List (String × Layout)} {address : String} {offset : Nat} {place : Field},
      place ∈ placeAccessors address offset fields → ∀ name capacity element,
        place.content = array name capacity element → P element
  | [], _, _, _, mem, _, _, _, _ => absurd mem List.not_mem_nil
  | (_, _) :: _, _, _, _, mem, _, _, _, same => by
    rcases List.mem_append.1 mem with mem | mem
    · exact element_induction step mem _ _ _ same
    · exact fields_induction step mem _ _ _ same

end

/-- Induction level by level: what follows for a layout from the elements of its arrays holds for
all layouts. -/
theorem induction_on_elements {P : Layout → Prop}
    (step : ∀ level, (∀ place ∈ level.places, ∀ name capacity element,
      place.content = array name capacity element → P element) → P level) (layout : Layout) :
    P layout :=
  step layout fun _ mem => element_induction step mem

end Layout

end DeviceBlob
