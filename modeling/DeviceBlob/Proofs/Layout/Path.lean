import DeviceBlob.Proofs.Layout.Parameters
import DeviceBlob.Proofs.Layout.WellFormed

/-!
# Paths to the parts of types and layouts

A path goes from a type to a part of it, over fields of records and elements of arrays, and from a
layout to a part of it in the same way.  What a path reaches in a type is laid out where the path
leads in the layout (`exists_hasPart_of_place`), and nothing but padding is reached in a layout
without being reached in its type (`hasPart_of_place`).

The arrays of a type have one path each, and the parameters of the type are the names along these
paths (`parameterNames_eq_map`).  As no parameter comes twice (`nodup_parameterNames`), a parameter
belongs to one path only.
-/

namespace DeviceBlob

/-- A step from a type to a part of it, or from a layout to a part of it. -/
inductive PathStep where
  /-- To the field of a record that has the given name. -/
  | field (name : String)
  /-- To the elements of an array. -/
  | element
  deriving DecidableEq, Repr

/-- The name that the parameters of the part have in front, seen from the whole. -/
def PathStep.name : PathStep → String
  | field name => name
  | element => DataType.itemPrefix

/-- The name of the parameter for the capacity of the array at the end of a path. -/
def capacityName (path : List PathStep) : String :=
  "_".intercalate (path.map PathStep.name ++ [DataType.capacityParameter])

/-- The name of a capacity is put together step by step. -/
theorem capacityName_cons {step : PathStep} (named : step.name ≠ "") (path : List PathStep) :
    capacityName (step :: path) = Name.join step.name (capacityName path) := by
  have more : path.map PathStep.name ++ [DataType.capacityParameter] ≠ [] := by simp
  rw [Name.join_of_ne_empty named, capacityName, List.map_cons, List.cons_append,
    String.intercalate_cons_of_ne_nil more]
  rfl

/-- The part behind a step sees its parameters without the name of the step. -/
theorem get?_capacityName_cons {params : Params} {step : PathStep} (named : step.name ≠ "")
    {path : List PathStep} : params.get? (capacityName (step :: path)) =
      (params.inside step.name).get? (capacityName path) := by
  rw [capacityName_cons named, Params.get?_inside named]

/-- Below a parent, too, the name is put together step by step. -/
theorem join_capacityName_cons {step : PathStep} (named : step.name ≠ "") (parent : String)
    (path : List PathStep) :
    Name.join parent (capacityName (step :: path)) =
      Name.join (Name.join parent step.name) (capacityName path) := by
  rw [capacityName_cons named, Name.join_assoc _ _ _ named]

namespace DataType

/-! ### Types -/

/-- A path leads from a type to a part of it. -/
inductive HasPart : DataType → List PathStep → DataType → Prop
  | here (type : DataType) : HasPart type [] type
  | field {name : String} {fields : List (String × DataType)} {field : String × DataType}
      {path : List PathStep} {part : DataType} (mem : field ∈ fields)
      (below : HasPart field.2 path part) :
      HasPart (record name fields) (.field field.1 :: path) part
  | element {name : String} {element part : DataType} {path : List PathStep}
      (below : HasPart element path part) : HasPart (array name element) (.element :: path) part

mutual

/-- The paths to the arrays of a type, in the order of its fields. -/
def arrayPaths : DataType → List (List PathStep)
  | scalar _ => []
  | enum _ => []
  | record _ fields => fieldArrayPaths fields
  | array _ element => [] :: (arrayPaths element).map (.element :: ·)

/-- The paths to the arrays of consecutive fields. -/
def fieldArrayPaths : List (String × DataType) → List (List PathStep)
  | [] => []
  | (name, type) :: rest => (arrayPaths type).map (.field name :: ·) ++ fieldArrayPaths rest

end

mutual

/-- The array paths of a type are the paths that lead to an array. -/
theorem mem_arrayPaths_iff : ∀ {type : DataType} {path : List PathStep},
    path ∈ type.arrayPaths ↔ ∃ name element, type.HasPart path (array name element)
  | scalar _, path | enum _, path => by
    simp only [arrayPaths, List.not_mem_nil, false_iff]
    rintro ⟨name, element, reaches⟩
    cases reaches
  | record name fields, path => by
    rw [arrayPaths, mem_fieldArrayPaths_iff]
    constructor
    · rintro ⟨field, mem, rest, rfl, inner, element, below⟩
      exact ⟨inner, element, .field mem below⟩
    · rintro ⟨inner, element, reaches⟩
      cases reaches with
      | field mem below => exact ⟨_, mem, _, rfl, inner, element, below⟩
  | array name element, path => by
    simp only [arrayPaths, List.mem_cons, List.mem_map]
    constructor
    · rintro (rfl | ⟨rest, mem, rfl⟩)
      · exact ⟨name, element, .here _⟩
      · obtain ⟨inner, content, below⟩ := mem_arrayPaths_iff.1 mem
        exact ⟨inner, content, .element below⟩
    · rintro ⟨inner, content, reaches⟩
      cases reaches with
      | here => exact Or.inl rfl
      | element below => exact Or.inr ⟨_, mem_arrayPaths_iff.2 ⟨inner, content, below⟩, rfl⟩

/-- The array paths of fields start with the field that they lead through. -/
theorem mem_fieldArrayPaths_iff : ∀ {fields : List (String × DataType)} {path : List PathStep},
    path ∈ fieldArrayPaths fields ↔ ∃ field ∈ fields, ∃ rest, path = .field field.1 :: rest ∧
      ∃ name element, field.2.HasPart rest (array name element)
  | [], _ => by simp [fieldArrayPaths]
  | (name, type) :: others, path => by
    simp only [fieldArrayPaths, List.mem_append, List.mem_map, mem_fieldArrayPaths_iff,
      List.exists_mem_cons_iff, mem_arrayPaths_iff]
    refine or_congr ?_ Iff.rfl
    constructor
    · rintro ⟨rest, reaches, rfl⟩
      exact ⟨rest, rfl, reaches⟩
    · rintro ⟨rest, rfl, reaches⟩
      exact ⟨rest, reaches, rfl⟩

end

mutual

/-- The parameters of a type are the names along the paths to its arrays. -/
theorem parameterNames_eq_map : ∀ {type : DataType}, type.Buildable →
    type.parameterNames = type.arrayPaths.map capacityName
  | scalar _, _ | enum _, _ => rfl
  | record _ _, h => fieldParameters_eq_map_paths h.named h.of_mem_fields
  | array _ element, h => by
    have item : PathStep.element.name ≠ "" := by decide
    rw [parameterNames_array h.element, parameterNames_eq_map h.element, arrayPaths, List.map_cons,
      List.map_map, List.map_map]
    congr 2
    funext path
    exact (capacityName_cons item path).symm

/-- Fields ask for one parameter for each array below them, named after its path. -/
theorem fieldParameters_eq_map_paths : ∀ {fields : List (String × DataType)},
    (∀ field ∈ fields, field.1 ≠ "") → (∀ field ∈ fields, Buildable field.2) →
      fieldParameters "" fields = (fieldArrayPaths fields).map capacityName
  | [], _, _ => rfl
  | (name, type) :: rest, named, parts => by
    have part : type.Buildable := parts _ List.mem_cons_self
    have here : (PathStep.field name).name ≠ "" := named _ List.mem_cons_self
    rw [fieldParameters_cons part, parameterNames_eq_map part, fieldArrayPaths, List.map_append,
      List.map_map, List.map_map, fieldParameters_eq_map_paths
        (fun field mem => named field (List.mem_cons_of_mem _ mem))
        (fun field mem => parts field (List.mem_cons_of_mem _ mem))]
    congr 2
    funext path
    exact (capacityName_cons here path).symm

end

/-- No name below the prefix of items is that of a capacity. -/
theorem join_item_ne_capacity (name : String) :
    Name.join itemPrefix name ≠ capacityParameter := by
  intro same
  have chars := congrArg (·.toList.head?) same
  rw [Name.toList_join (by decide)] at chars
  simp [itemPrefix, capacityParameter] at chars

/-- No parameter of a type comes twice. -/
theorem nodup_parameterNames : ∀ {type : DataType}, type.Buildable → type.parameterNames.Nodup
  | scalar _, _ | enum _, _ => .nil
  | record _ _, h => (ofFields_eq_ok_iff.1 h.ofFields_eq_ok).2.2.2.2.2
  | array _ element, h => by
    rw [parameterNames_array h.element, List.nodup_cons]
    refine ⟨?_, (nodup_parameterNames h.element).map ?_⟩
    · intro mem
      obtain ⟨name, -, same⟩ := List.mem_map.1 mem
      exact join_item_ne_capacity name same
    · exact fun _ _ => Name.join_left_cancel

/-- A parameter belongs to one path only. -/
theorem path_of_capacityName {type : DataType} (buildable : type.Buildable)
    {path other : List PathStep} (mem : path ∈ type.arrayPaths) (mem' : other ∈ type.arrayPaths)
    (same : capacityName path = capacityName other) : path = other := by
  have nodup := nodup_parameterNames buildable
  rw [parameterNames_eq_map buildable] at nodup
  exact List.inj_on_of_nodup_map nodup mem mem' same

/-- The steps of a path have names, which the parameters along the path begin with. -/
theorem HasPart.named {type part : DataType} {path : List PathStep}
    (reaches : type.HasPart path part) (buildable : type.Buildable) :
    ∀ step ∈ path, step.name ≠ "" := by
  induction reaches with
  | here type => simp
  | @field _ fields field path part mem below ih =>
    exact List.forall_mem_cons.2
      ⟨buildable.named field mem, ih (buildable.of_mem_fields field mem)⟩
  | element below ih => exact List.forall_mem_cons.2 ⟨by decide, ih buildable.element⟩

end DataType

namespace Layout

variable {packing : Packing}

/-! ### Layouts -/

/-- A path leads from a layout to a part of it. -/
inductive HasPart : Layout → List PathStep → Layout → Prop
  | here (layout : Layout) : HasPart layout [] layout
  | field {name : String} {fields : List (String × Layout)} {field : String × Layout}
      {path : List PathStep} {part : Layout} (mem : field ∈ fields)
      (below : HasPart field.2 path part) :
      HasPart (record name fields) (.field field.1 :: path) part
  | element {name : String} {capacity : Nat} {element part : Layout} {path : List PathStep}
      (below : HasPart element path part) :
      HasPart (array name capacity element) (.element :: path) part

/-- Each field of a record has its part in the layout. -/
theorem exists_part_of_placeAll {runs : List VectorRun} {field : String × DataType} :
    ∀ {fields : List (String × DataType)} {position : Nat} {params : Params}
      {parts : List (String × Layout)}, placeAll packing params runs position fields = .ok parts →
      field ∈ fields → ∃ layout, (field.1, layout) ∈ parts ∧
        place packing (params.inside field.1) field.2 = .ok layout
  | [], _, _, _, _, mem => absurd mem List.not_mem_nil
  | (_, _) :: _, _, _, _, placed, mem => by
    obtain ⟨layout, others, here, there, rfl⟩ := placeAll_cons_eq_ok_iff.1 placed
    rcases List.mem_cons.1 mem with rfl | mem
    · exact ⟨layout, List.mem_cons_self, here⟩
    · obtain ⟨part, held, below⟩ := exists_part_of_placeAll there mem
      exact ⟨part, List.mem_cons_of_mem _ (List.mem_append_right _ held), below⟩

/-- Each part of the layout of a record is that of a field, or it is padding. -/
theorem field_of_mem_placeAll {runs : List VectorRun} {part : String × Layout} :
    ∀ {fields : List (String × DataType)} {position : Nat} {params : Params}
      {parts : List (String × Layout)}, placeAll packing params runs position fields = .ok parts →
      part ∈ parts → (∃ field ∈ fields, field.1 = part.1 ∧
        place packing (params.inside field.1) field.2 = .ok part.2) ∨ part.2.isPadding = true
  | [], _, _, _, placed, mem => by
    cases placed
    exact absurd mem List.not_mem_nil
  | (name, type) :: rest, position, _, _, placed, mem => by
    obtain ⟨layout, others, here, there, rfl⟩ := placeAll_cons_eq_ok_iff.1 placed
    simp only [List.mem_cons, List.mem_append] at mem
    rcases mem with rfl | padding | behind
    · exact Or.inl ⟨(name, type), List.mem_cons_self, rfl, here⟩
    · unfold paddingBehind at padding
      split at padding
      · rw [List.mem_singleton.1 padding]
        exact Or.inr rfl
      · exact absurd padding List.not_mem_nil
    · refine (field_of_mem_placeAll there behind).imp_left ?_
      rintro ⟨field, mem, same, below⟩
      exact ⟨field, List.mem_cons_of_mem _ mem, same, below⟩

/-- What a path reaches in a type is laid out where the path leads in the layout. -/
theorem exists_hasPart_of_place {type part : DataType} {path : List PathStep}
    (reaches : type.HasPart path part) : ∀ {params : Params} {layout : Layout},
      place packing params type = .ok layout → ∃ params' inner, layout.HasPart path inner ∧
        place packing params' part = .ok inner := by
  induction reaches with
  | here type =>
    intro params layout placed
    exact ⟨params, layout, .here layout, placed⟩
  | field mem _ ih =>
    intro params layout placed
    obtain ⟨parts, all, -, rfl⟩ := place_record_eq_ok_iff.1 placed
    obtain ⟨content, held, below⟩ := exists_part_of_placeAll all mem
    obtain ⟨params', inner, reaches, there⟩ := ih below
    exact ⟨params', inner, .field held reaches, there⟩
  | element _ ih =>
    intro params layout placed
    obtain ⟨capacity, item, -, below, rfl⟩ := place_array_eq_ok_iff.1 placed
    obtain ⟨params', inner, reaches, there⟩ := ih below
    exact ⟨params', inner, .element reaches, there⟩

/-- What a path reaches in a layout is the layout of what it reaches in the type, or it is
padding. -/
theorem hasPart_of_place {layout inner : Layout} {path : List PathStep}
    (reaches : layout.HasPart path inner) : ∀ {type : DataType} {params : Params},
      place packing params type = .ok layout → inner.isPadding = false →
        ∃ params' part, type.HasPart path part ∧ place packing params' part = .ok inner := by
  induction reaches with
  | here layout =>
    intro type params placed _
    exact ⟨params, type, .here type, placed⟩
  | @field name fields field path inner mem below ih =>
    intro type params placed value
    cases type with
    | record name fields =>
      obtain ⟨parts, all, -, same⟩ := place_record_eq_ok_iff.1 placed
      cases same
      rcases field_of_mem_placeAll all mem with ⟨declared, among, same, here⟩ | padding
      · obtain ⟨params', part, reaches, there⟩ := ih here value
        exact ⟨params', part, same ▸ .field among reaches, there⟩
      · -- A path ends in padding, so what it reaches there is the padding itself.
        obtain ⟨label, content⟩ := field
        cases content with
        | padding kind => cases below; cases value
        | _ => cases padding
    | scalar kind => cases placed
    | enum type => cases placed
    | array name element =>
      obtain ⟨capacity, item, -, -, same⟩ := place_array_eq_ok_iff.1 placed
      cases same
  | element _ ih =>
    intro type params placed value
    cases type with
    | array name element =>
      obtain ⟨capacity, item, -, here, same⟩ := place_array_eq_ok_iff.1 placed
      cases same
      obtain ⟨params', part, reaches, there⟩ := ih here value
      exact ⟨params', part, .element reaches, there⟩
    | scalar kind => cases placed
    | enum type => cases placed
    | record name fields =>
      obtain ⟨parts, -, -, same⟩ := place_record_eq_ok_iff.1 placed
      cases same

end Layout

end DeviceBlob
