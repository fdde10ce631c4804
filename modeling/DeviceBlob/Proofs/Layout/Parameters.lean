import DeviceBlob.Proofs.Layout.Fields

/-!
# Layouts and their parameters

A layout remembers the parameters that it was made with: `get?_params` says that it has the value of
each parameter that its type depends on and no others, so that compiling again with the parameters
of a layout gives the same layout (`layout_params`).  A type without parameters has one layout
(`plainLayout_eq_ok`).
-/

namespace DeviceBlob

namespace DataType

mutual

/-- A plain type has no parameters. -/
theorem parametersUnder_of_isPlain : ∀ {type : DataType} (parent : String),
    type.isPlain = true → type.parametersUnder parent = []
  | scalar _, _, _ => rfl
  | enum _, _, _ => rfl
  | record _ _, parent, plain => fieldParameters_of_fieldsPlain parent plain
  | array _ _, _, plain => absurd plain (by simp [isPlain])

/-- Plain fields ask for no parameters. -/
theorem fieldParameters_of_fieldsPlain : ∀ {fields : List (String × DataType)} (parent : String),
    fieldsPlain fields = true → fieldParameters parent fields = []
  | [], _, _ => rfl
  | (name, type) :: rest, parent, plain => by
    simp only [fieldsPlain, Bool.and_eq_true] at plain
    rw [fieldParameters, parametersUnder_of_isPlain _ plain.1,
      fieldParameters_of_fieldsPlain parent plain.2, List.append_nil]

end

/-- The parameters of a record are those of its fields, under their names. -/
theorem fieldParameters_cons {name : String} {type : DataType} {rest : List (String × DataType)}
    (buildable : type.Buildable) :
    fieldParameters "" ((name, type) :: rest) =
      type.parameterNames.map (Name.join name) ++ fieldParameters "" rest := by
  rw [fieldParameters, Name.join_empty, parametersUnder_eq_map name buildable]

/-- The parameters of an array are its capacity and those of its elements, under their prefix. -/
theorem parameterNames_array {name : String} {element : DataType} (buildable : element.Buildable) :
    (array name element).parameterNames =
      capacityParameter :: element.parameterNames.map (Name.join itemPrefix) := by
  rw [parameterNames, parametersUnder_array, Name.join_empty, Name.join_empty,
    parametersUnder_eq_map itemPrefix buildable]

end DataType

namespace Params

/-- Two sets of parameters are the same on some names. -/
def SameOn (names : List String) (params other : Params) : Prop :=
  ∀ name ∈ names, params.get? name = other.get? name

/-- Parameters that are the same on names below a prefix are the same inside of it. -/
theorem SameOn.inside {names : List String} {prefixName : String} {params other : Params}
    (named : prefixName ≠ "") (same : SameOn (names.map (Name.join prefixName)) params other) :
    SameOn names (params.inside prefixName) (other.inside prefixName) := by
  intro name mem
  rw [get?_inside named, get?_inside named]
  exact same _ (List.mem_map_of_mem mem)

end Params

namespace Layout

variable {packing : Packing} {params : Params}

/-! ### Nothing else matters -/

mutual

/-- The layout of a type depends on the parameters of the type only. -/
theorem place_congr : ∀ {type : DataType} {params other : Params}, type.Buildable →
    Params.SameOn type.parameterNames params other →
      place packing params type = place packing other type
  | .scalar _, _, _, _, _ => rfl
  | .enum _, _, _, _, _ => rfl
  | .record _ fields, params, other, buildable, same => by
    rw [place, place, placeAll_congr buildable.named buildable.of_mem_fields same]
  | .array name element, params, other, buildable, same => by
    rw [DataType.parameterNames_array buildable.element] at same
    have capacity : params.get? DataType.capacityParameter =
        other.get? DataType.capacityParameter := same _ List.mem_cons_self
    have item := place_congr buildable.element
      (Params.SameOn.inside (by decide) fun name mem => same name (List.mem_cons_of_mem _ mem))
    rw [place, place, item, capacityOf, capacityOf, capacity]

/-- Fields are placed alike for parameters that are the same where they ask. -/
theorem placeAll_congr {runs : List VectorRun} : ∀ {fields : List (String × DataType)}
    {position : Nat} {params other : Params}, (∀ field ∈ fields, field.1 ≠ "") →
      (∀ field ∈ fields, field.2.Buildable) →
      Params.SameOn (DataType.fieldParameters "" fields) params other →
        placeAll packing params runs position fields = placeAll packing other runs position fields
  | [], _, _, _, _, _, _ => rfl
  | (name, type) :: rest, position, params, other, named, buildable, same => by
    have part : type.Buildable := buildable _ List.mem_cons_self
    rw [DataType.fieldParameters_cons part] at same
    have here := place_congr part (Params.SameOn.inside (named _ List.mem_cons_self)
      fun name mem => same name (List.mem_append_left _ mem))
    have behind := @placeAll_congr runs rest (position + 1) params other
      (fun field mem => named field (List.mem_cons_of_mem _ mem))
      (fun field mem => buildable field (List.mem_cons_of_mem _ mem))
      fun name mem => same name (List.mem_append_right _ mem)
    rw [placeAll, placeAll, here, behind]

end

/-! ### The capacities of a layout -/

/-- The entries stand for the named parameters one by one, with their values and with the name of
the parent in front. -/
def Lists (params : Params) (parent : String) (names : List String)
    (entries : List (String × Nat)) : Prop :=
  List.Forall₂ (fun name entry => entry.1 = Name.join parent name ∧
    params.get? name = some (Int64.ofNat entry.2) ∧ (Int64.ofNat entry.2).toInt = entry.2)
      names entries

/-- What a part lists, its whole lists under the prefix of the part. -/
theorem Lists.of_inside {parent prefixName : String} {names : List String}
    {entries : List (String × Nat)} (named : prefixName ≠ "")
    (lists : Lists (params.inside prefixName) (Name.join parent prefixName) names entries) :
    Lists params parent (names.map (Name.join prefixName)) entries := by
  rw [Lists, List.forall₂_map_left_iff]
  refine lists.imp ?_
  rintro name entry ⟨same, held, value⟩
  rw [Params.get?_inside named] at held
  exact ⟨same.trans (Name.join_assoc _ _ _ named), held, value⟩

/-- The capacities of two runs of fields stand one behind the other. -/
theorem fieldCapacities_append (parent : String) : ∀ (a b : List (String × Layout)),
    fieldCapacities parent (a ++ b) = fieldCapacities parent a ++ fieldCapacities parent b
  | [], _ => rfl
  | (name, layout) :: rest, b => by
    rw [List.cons_append, fieldCapacities, fieldCapacities, fieldCapacities_append parent rest b,
      List.append_assoc]

/-- Padding has no capacities. -/
theorem fieldCapacities_paddingBehind (parent : String) (runs : List VectorRun) (position : Nat) :
    fieldCapacities parent (paddingBehind runs position) = [] := by
  unfold paddingBehind
  cases runs.find? (·.last = position) <;> rfl

/-- A value that is not negative is found again in the capacity it stands for. -/
theorem ofNat_toNat_toInt {value : Int64} (low : 0 ≤ value.toInt) :
    Int64.ofNat value.toInt.toNat = value := by
  rw [← Int64.ofInt_eq_ofNat, Int.toNat_of_nonneg low, Int64.ofInt_toInt]

mutual

/-- The arrays of a layout have the capacities that the parameters of its type say. -/
theorem lists_of_place : ∀ {type : DataType} {params : Params} {layout : Layout} (parent : String),
    type.Buildable → place packing params type = .ok layout →
      Lists params parent type.parameterNames (layout.capacitiesUnder parent)
  | .scalar _, _, _, _, _, placed | .enum _, _, _, _, _, placed => by
    cases placed
    exact .nil
  | .record _ _, _, _, parent, buildable, placed => by
    obtain ⟨parts, all, -, rfl⟩ := place_record_eq_ok_iff.1 placed
    exact lists_of_placeAll parent buildable.named buildable.of_mem_fields all
  | .array _ _, _, _, parent, buildable, placed => by
    obtain ⟨capacity, item, found, below, rfl⟩ := place_array_eq_ok_iff.1 placed
    obtain ⟨value, held, low, rfl⟩ := capacityOf_eq_ok_iff.1 found
    rw [DataType.parameterNames_array buildable.element]
    refine .cons ⟨rfl, ?_⟩ (Lists.of_inside (by decide)
      (lists_of_place (Name.join parent DataType.itemPrefix) buildable.element below))
    rw [ofNat_toNat_toInt low, Int.toNat_of_nonneg low]
    exact ⟨held, rfl⟩

/-- Placed fields list a capacity for each parameter that they ask for. -/
theorem lists_of_placeAll {runs : List VectorRun} : ∀ {fields : List (String × DataType)}
    {position : Nat} {params : Params} {parts : List (String × Layout)} (parent : String),
      (∀ field ∈ fields, field.1 ≠ "") → (∀ field ∈ fields, field.2.Buildable) →
      placeAll packing params runs position fields = .ok parts →
        Lists params parent (DataType.fieldParameters "" fields) (fieldCapacities parent parts)
  | [], _, _, _, _, _, _, placed => by
    cases placed
    exact .nil
  | (name, type) :: rest, position, _, _, parent, named, buildable, placed => by
    obtain ⟨layout, others, here, there, rfl⟩ := placeAll_cons_eq_ok_iff.1 placed
    have part : type.Buildable := buildable _ List.mem_cons_self
    have front := Lists.of_inside (named _ List.mem_cons_self)
      (lists_of_place (Name.join parent name) part here)
    have behind := lists_of_placeAll parent
      (fun field mem => named field (List.mem_cons_of_mem _ mem))
      (fun field mem => buildable field (List.mem_cons_of_mem _ mem)) there
    rw [DataType.fieldParameters_cons part, fieldCapacities, fieldCapacities_append,
      fieldCapacities_paddingBehind, List.nil_append]
    exact List.rel_append front behind

end

/-- The capacity of an array in a layout is the value of a parameter of its type. -/
theorem capacity_of_layout {compiler : Compiler} {type : DataType} {params : Params}
    {layout : Layout} (buildable : type.Buildable)
    (compiled : compiler.layout type params = .ok layout) {name : String} {capacity : Nat}
    (mem : (name, capacity) ∈ layout.capacitiesUnder "") :
    name ∈ type.parameterNames ∧ params.get? name = some (Int64.ofNat capacity) ∧
      (Int64.ofNat capacity).toInt = capacity := by
  obtain ⟨required, checked, placed⟩ := Compiler.layout_eq_ok_iff.1 compiled
  obtain ⟨_, named, rfl, held, value⟩ := exists_of_mem_right (lists_of_place "" buildable placed) mem
  obtain ⟨other, found, kept, -⟩ := Params.requiredBy_ok checked _ named
  rw [kept] at held
  exact ⟨named, found.trans held, value⟩

/-- The parameters of a layout are those that its type depends on, with the values that it was
compiled with. -/
theorem get?_params {compiler : Compiler} {type : DataType} {params : Params} {layout : Layout}
    (buildable : type.Buildable) (compiled : compiler.layout type params = .ok layout)
    (name : String) :
    layout.params.get? name =
      if name ∈ type.parameterNames then params.get? name else none := by
  have entry_of : ∀ key value, (key, value) ∈ (layout.capacitiesUnder "").map
      (fun entry => (entry.1, Int64.ofNat entry.2)) →
        key ∈ type.parameterNames ∧ params.get? key = some value := by
    intro key value mem
    obtain ⟨⟨_, capacity⟩, among, same⟩ := List.mem_map.1 mem
    cases same
    obtain ⟨named, held, -⟩ := capacity_of_layout buildable compiled among
    exact ⟨named, held⟩
  split
  · next mem =>
    obtain ⟨required, -, placed⟩ := Compiler.layout_eq_ok_iff.1 compiled
    obtain ⟨⟨_, capacity⟩, among, rfl, -⟩ :=
      exists_of_mem_left (lists_of_place "" buildable placed) mem
    have there := List.mem_map_of_mem (f := fun entry => (entry.1, Int64.ofNat entry.2)) among
    have found := (entry_of _ _ there).2
    refine (SortedMap.get?_ofList_of_agree there ?_).trans found.symm
    intro other again
    exact Option.some.inj ((entry_of _ _ again).2.symm.trans found)
  · next absent =>
    cases found : layout.params.get? name with
    | none => rfl
    | some value => exact absurd (entry_of _ _ (SortedMap.mem_of_get?_ofList found)).1 absent

end Layout

namespace Compiler

variable {compiler : Compiler} {type : DataType} {params other : Params} {layout : Layout}

/-- The layout of a type depends on the parameters of the type only. -/
theorem layout_congr (same : Params.SameOn type.parameterNames params other) :
    compiler.layout type params = compiler.layout type other := by
  rw [Compiler.layout, Compiler.layout, Params.requiredBy_congr same]

/-- Compiling again with the parameters of a layout gives the same layout. -/
theorem layout_params (buildable : type.Buildable)
    (compiled : compiler.layout type params = .ok layout) :
    compiler.layout type layout.params = .ok layout := by
  rw [← compiled]
  refine layout_congr fun name mem => ?_
  rw [Layout.get?_params buildable compiled, if_pos mem]

/-- A layout made with exactly the parameters of its type remembers them. -/
theorem params_layout (buildable : type.Buildable)
    (keys : ∀ name ∈ params.values.keys, name ∈ type.parameterNames)
    (compiled : compiler.layout type params = .ok layout) : layout.params = params := by
  apply Params.ext
  apply SortedMap.ext_get?
  intro name
  refine (Layout.get?_params buildable compiled name).trans ?_
  split
  · rfl
  · next absent =>
    refine Eq.symm (SortedMap.get?_eq_none_iff.2 ?_)
    exact fun value mem => absent (keys _ (List.mem_map_of_mem mem))

/-- The parameters that a layout was compiled with are in range. -/
theorem range_of_layout (compiled : compiler.layout type params = .ok layout) :
    ∀ name ∈ type.parameterNames, ∃ value, params.get? name = some value ∧
      1 ≤ value.toInt ∧ value.toInt ≤ compiler.maxParameter := by
  obtain ⟨required, checked, -⟩ := layout_eq_ok_iff.1 compiled
  intro name mem
  obtain ⟨value, found, -, range⟩ := Params.requiredBy_ok checked name mem
  exact ⟨value, found, range⟩

/-- Where the parameters are in range, they are those that the layout is made with. -/
theorem layout_eq_place (buildable : type.Buildable)
    (range : params.InRange compiler.maxParameter type.parameterNames) :
    compiler.layout type params = Layout.place compiler.packing params type := by
  obtain ⟨required, checked⟩ := Params.exists_requiredBy_eq_ok range
  rw [Compiler.layout, checked, ok_bind]
  refine Layout.place_congr buildable ?_
  intro name mem
  obtain ⟨value, found, kept, -⟩ := Params.requiredBy_ok checked name mem
  rw [found, kept]

/-- A plain type has the same layout under all parameters. -/
theorem plainLayout_eq_ok (buildable : type.Buildable) (plain : type.isPlain = true)
    (placed : Layout.place compiler.packing params type = .ok layout) :
    compiler.plainLayout type = .ok layout := by
  have none : type.parameterNames = [] := DataType.parametersUnder_of_isPlain "" plain
  have checked : (∅ : Params).requiredBy type compiler.maxParameter = .ok (.ofList []) := by
    rw [Params.requiredBy, none]
    rfl
  rw [plainLayout, checkPlain, if_pos plain, ok_bind, Compiler.layout, checked, ok_bind, ← placed]
  refine Layout.place_congr buildable ?_
  rw [none]
  exact fun name mem => absurd mem List.not_mem_nil

end Compiler

end DeviceBlob
