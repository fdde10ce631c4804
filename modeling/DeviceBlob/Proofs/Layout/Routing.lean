import DeviceBlob.Proofs.Layout.Cache
import DeviceBlob.Proofs.Layout.Path
import DeviceBlob.Proofs.Layout.Tiling

/-!
# Which parameter an array gets

Parameters are handed down by their prefixes, so a part may well see parameters that are not its
own: the fields `a` and `a_b` of a record see each other's.  Even so each array of a layout has the
value of the parameter with the name of its own path (`mem_capacitiesUnder_of_hasPart`), which no
other array of the type shares.

A compilation names the first parameter that is missing or out of range.  Once all are in range the
one thing that is left to go wrong are two accessors of one name (`flattenedTwice_of_place`).
-/

namespace DeviceBlob

namespace Layout

variable {packing : Packing} {max : Nat}

/-! ### What can go wrong -/

mutual

/-- With its parameters in range a type cannot be laid out only if two accessors have one name. -/
theorem flattenedTwice_of_place : ∀ {type : DataType} {params : Params} {e : Error},
    type.Buildable → params.InRange max type.parameterNames →
      place packing params type = .error e →
        ∃ record field, e = .invalidSchema (.flattenedTwice record field)
  | .scalar _, _, _, _, _, failed | .enum _, _, _, _, _, failed => by cases failed
  | .record name fields, _, _, buildable, range, failed => by
    rw [place, bind_eq_error] at failed
    rcases failed with failed | ⟨parts, -, failed⟩
    · exact flattenedTwice_of_placeAll buildable.named buildable.of_mem_fields range failed
    · exact ⟨name, ofFields_eq_error failed⟩
  | .array name element, params, _, buildable, range, failed => by
    obtain ⟨value, found, positive, -⟩ :=
      range _ (DataType.capacity_mem_parameterNames name element)
    have capacity : capacityOf name params = .ok value.toInt.toNat :=
      capacityOf_eq_ok_iff.2 ⟨value, found, by omega, rfl⟩
    rw [DataType.parameterNames_array buildable.element] at range
    rw [place, capacity, ok_bind, bind_eq_error] at failed
    rcases failed with failed | ⟨item, -, done⟩
    · exact flattenedTwice_of_place buildable.element (Params.InRange.inside (by decide)
        fun name mem => range name (List.mem_cons_of_mem _ mem)) failed
    · cases done

/-- With all parameters in range, fields are refused only for names that are doubled. -/
theorem flattenedTwice_of_placeAll {runs : List VectorRun} :
    ∀ {fields : List (String × DataType)} {position : Nat} {params : Params} {e : Error},
      (∀ field ∈ fields, field.1 ≠ "") → (∀ field ∈ fields, field.2.Buildable) →
      params.InRange max (DataType.fieldParameters "" fields) →
      placeAll packing params runs position fields = .error e →
        ∃ record field, e = .invalidSchema (.flattenedTwice record field)
  | [], _, _, _, _, _, _, failed => by cases failed
  | (name, type) :: rest, position, _, _, named, buildable, range, failed => by
    have part : type.Buildable := buildable _ List.mem_cons_self
    rw [DataType.fieldParameters_cons part] at range
    rw [placeAll, bind_eq_error] at failed
    rcases failed with failed | ⟨layout, -, failed⟩
    · exact flattenedTwice_of_place part (Params.InRange.inside (named _ List.mem_cons_self)
        fun name mem => range name (List.mem_append_left _ mem)) failed
    · rw [bind_eq_error] at failed
      rcases failed with failed | ⟨others, -, done⟩
      · exact flattenedTwice_of_placeAll
          (fun field mem => named field (List.mem_cons_of_mem _ mem))
          (fun field mem => buildable field (List.mem_cons_of_mem _ mem))
          (fun name mem => range name (List.mem_append_right _ mem)) failed
      · cases done

end

/-! ### Capacities along paths -/

/-- The capacities of a field are among those of its record. -/
theorem capacitiesUnder_subset_fieldCapacities {parent : String} {field : String × Layout} :
    ∀ {fields : List (String × Layout)}, field ∈ fields →
      capacitiesUnder (Name.join parent field.1) field.2 ⊆ fieldCapacities parent fields
  | [], mem => absurd mem List.not_mem_nil
  | (_, _) :: rest, mem => by
    rw [fieldCapacities]
    rcases List.mem_cons.1 mem with rfl | mem
    · exact List.subset_append_left _ _
    · exact List.Subset.trans (capacitiesUnder_subset_fieldCapacities mem)
        (List.subset_append_right _ _)

/-- The capacity of the array at the end of a path is listed under the name of that path. -/
theorem mem_capacitiesUnder_of_hasPart {layout part : Layout} {path : List PathStep}
    (reaches : layout.HasPart path part) : ∀ {name : String} {capacity : Nat} {item : Layout}
      {parent : String}, layout.WellFormed → part = array name capacity item →
        (Name.join parent (capacityName path), capacity) ∈ layout.capacitiesUnder parent := by
  induction reaches with
  | here layout =>
    rintro name capacity item parent - rfl
    exact List.mem_cons_self
  | @field name fields field path part mem _ ih =>
    intro array capacity item parent formed same
    have named : (PathStep.field field.1).name ≠ "" := formed.1.named mem
    rw [join_capacityName_cons named]
    exact capacitiesUnder_subset_fieldCapacities mem (ih (formed.1.of_mem mem) same)
  | element _ ih =>
    intro array capacity item parent formed same
    have named : PathStep.element.name ≠ "" := by decide
    rw [join_capacityName_cons named]
    exact List.mem_cons_of_mem _ (ih formed.2 same)

/-- The array at the end of a path has the value of the parameter with the name of the path in every
proper layout, also in one that the cache has given to another type. -/
theorem Proper.capacity_of_hasPart {layout part : Layout} {path : List PathStep}
    (reaches : layout.HasPart path part) : ∀ {params : Params} {name : String} {capacity : Nat}
      {item : Layout}, layout.Proper params → (∀ step ∈ path, step.name ≠ "") →
        part = array name capacity item →
          ∃ value, params.get? (capacityName path) = some value ∧ value.toInt = capacity := by
  induction reaches with
  | here layout =>
    rintro params name capacity item proper - rfl
    exact proper.1
  | @field name fields field path part mem _ ih =>
    intro params array capacity item proper named same
    obtain ⟨first, others⟩ := List.forall_mem_cons.1 named
    obtain ⟨value, found, equal⟩ := ih (proper.2.of_mem mem) others same
    exact ⟨value, (get?_capacityName_cons first).trans found, equal⟩
  | element _ ih =>
    intro params array capacity item proper named same
    obtain ⟨first, others⟩ := List.forall_mem_cons.1 named
    obtain ⟨-, -, below⟩ := proper
    obtain ⟨value, found, equal⟩ := ih below others same
    exact ⟨value, (get?_capacityName_cons first).trans found, equal⟩

end Layout

namespace Compiler

variable {compiler : Compiler} {type : DataType} {params : Params} {layout : Layout}

/-- A compilation in which a parameter is refused fails with the refusal of the first such
parameter. -/
theorem layout_eq_refusal {front back : List String} {name : String}
    (split : type.parameterNames = front ++ name :: back)
    (fine : ∀ other ∈ front, params.Admits compiler.maxParameter other)
    (bad : ¬params.Admits compiler.maxParameter name) :
    compiler.layout type params =
      .error (params.refusal type.name compiler.maxParameter name) := by
  rw [Compiler.layout, Params.requiredBy_eq_error_iff.2 ⟨front, name, back, split, fine, bad, rfl⟩,
    error_bind]

/-- A compilation fails because of a parameter that is refused or of two accessors of one name. -/
theorem layout_eq_error (buildable : type.Buildable) {e : Error}
    (failed : compiler.layout type params = .error e) :
    ((∃ name ∈ type.parameterNames, ¬params.Admits compiler.maxParameter name) ∧
        e.IsAboutParameter) ∨
      params.InRange compiler.maxParameter type.parameterNames ∧
        ∃ record field, e = .invalidSchema (.flattenedTwice record field) := by
  rw [Compiler.layout, bind_eq_error] at failed
  rcases failed with failed | ⟨required, checked, failed⟩
  · obtain ⟨front, name, back, split, -, bad, rfl⟩ := Params.requiredBy_eq_error_iff.1 failed
    refine Or.inl ⟨⟨name, ?_, bad⟩, Params.isAboutParameter_refusal _ _ _ _⟩
    rw [split]
    exact List.mem_append_right _ List.mem_cons_self
  · have each := Params.requiredBy_ok checked
    have range : required.InRange compiler.maxParameter type.parameterNames := by
      intro name mem
      obtain ⟨value, -, kept, range⟩ := each name mem
      exact ⟨value, kept, range⟩
    refine Or.inr ⟨?_, Layout.flattenedTwice_of_place buildable range failed⟩
    intro name mem
    obtain ⟨value, found, -, range⟩ := each name mem
    exact ⟨value, found, range⟩

/-- If a parameter is refused, the compilation fails because of a parameter. -/
theorem exists_layout_eq_error_iff (buildable : type.Buildable) :
    (∃ e, compiler.layout type params = .error e ∧ e.IsAboutParameter) ↔
      ∃ name ∈ type.parameterNames, ¬params.Admits compiler.maxParameter name := by
  constructor
  · rintro ⟨e, failed, about⟩
    rcases layout_eq_error buildable failed with ⟨bad, -⟩ | ⟨-, record, field, rfl⟩
    · exact bad
    · exact absurd about id
  · rintro ⟨name, mem, bad⟩
    cases checked : params.requiredBy type compiler.maxParameter with
    | ok required =>
      obtain ⟨value, found, -, range⟩ := Params.requiredBy_ok checked name mem
      exact absurd ⟨value, found, range⟩ bad
    | error e =>
      obtain ⟨front, first, back, split, fine, refused, -⟩ :=
        Params.requiredBy_eq_error_iff.1 checked
      exact ⟨_, layout_eq_refusal split fine refused, Params.isAboutParameter_refusal _ _ _ _⟩

/-- The array at the end of a path has the value of the parameter with the name of the path. -/
theorem capacity_of_hasPart (buildable : type.Buildable)
    (compiled : compiler.layout type params = .ok layout) {path : List PathStep} {name : String}
    {capacity : Nat} {item : Layout} (reaches : layout.HasPart path (.array name capacity item)) :
    ∃ value, params.get? (capacityName path) = some value ∧ value.toInt = capacity := by
  have formed := Layout.wellFormed_of_layout buildable compiled
  have listed : (capacityName path, capacity) ∈ layout.capacitiesUnder "" :=
    Layout.mem_capacitiesUnder_of_hasPart reaches formed rfl
  obtain ⟨-, held, value⟩ := Layout.capacity_of_layout buildable compiled listed
  exact ⟨_, held, value⟩

/-- A path that leads to an array in a layout leads to that array in the type. -/
theorem hasPart_array_of_layout (compiled : compiler.layout type params = .ok layout)
    {path : List PathStep} {name : String} {capacity : Nat} {item : Layout}
    (reaches : layout.HasPart path (.array name capacity item)) :
    ∃ element, type.HasPart path (.array name element) := by
  obtain ⟨required, -, placed⟩ := layout_eq_ok_iff.1 compiled
  obtain ⟨params', part, leads, there⟩ := Layout.hasPart_of_place reaches placed rfl
  cases part with
  | array other element =>
    obtain ⟨_, _, -, -, same⟩ := Layout.place_array_eq_ok_iff.1 there
    cases same
    exact ⟨element, leads⟩
  | record other fields =>
    obtain ⟨_, -, -, same⟩ := Layout.place_record_eq_ok_iff.1 there
    cases same
  | scalar kind => cases there
  | enum type => cases there

/-- A path that leads to an array in a type leads to that array in the layout. -/
theorem exists_hasPart_array_of_layout (compiled : compiler.layout type params = .ok layout)
    {path : List PathStep} {name : String} {element : DataType}
    (reaches : type.HasPart path (.array name element)) :
    ∃ capacity item, layout.HasPart path (.array name capacity item) := by
  obtain ⟨required, -, placed⟩ := layout_eq_ok_iff.1 compiled
  obtain ⟨params', inner, leads, there⟩ := Layout.exists_hasPart_of_place reaches placed
  obtain ⟨capacity, item, -, -, rfl⟩ := Layout.place_array_eq_ok_iff.1 there
  exact ⟨capacity, item, leads⟩

/-- **Each array gets the parameter of its own path, and the first bad parameter is named.**  The
parameters of a type are the names along the paths to its arrays, no two of which are the same.  A
compilation fails with an error about a parameter exactly if one of them is missing or out of
range, and then about the first one; it can only fail with a fault of the schema besides.  If it
succeeds, the layout has its arrays at the end of the same paths as the type, each with the value
of the parameter named after its path.  Other parameters do not matter.  And a cache that is safe
for the type does not matter either: all of this holds of what is compiled with it. -/
theorem routing_of_parameters {type : DataType} (buildable : type.Buildable) :
    type.parameterNames.Nodup ∧
    (∀ name, name ∈ type.parameterNames ↔
      ∃ path array element, type.HasPart path (.array array element) ∧ name = capacityName path) ∧
    (∀ path other array array' element element', type.HasPart path (.array array element) →
      type.HasPart other (.array array' element') → capacityName path = capacityName other →
        path = other) ∧
    ∀ (compiler : Compiler) (params : Params),
      ((∃ e, compiler.layout type params = .error e ∧ e.IsAboutParameter) ↔
        ∃ name ∈ type.parameterNames, ¬params.Admits compiler.maxParameter name) ∧
      (∀ front name back, type.parameterNames = front ++ name :: back →
        (∀ other ∈ front, params.Admits compiler.maxParameter other) →
        ¬params.Admits compiler.maxParameter name →
          compiler.layout type params =
            .error (params.refusal type.name compiler.maxParameter name)) ∧
      (∀ e, compiler.layout type params = .error e →
        e.IsAboutParameter ∨ ∃ fault, e = .invalidSchema fault) ∧
      (∀ layout, compiler.layout type params = .ok layout →
        (∀ path array element, type.HasPart path (.array array element) →
          ∃ capacity item, layout.HasPart path (.array array capacity item)) ∧
        (∀ path array capacity item, layout.HasPart path (.array array capacity item) →
          (∃ element, type.HasPart path (.array array element)) ∧
          ∃ value, params.get? (capacityName path) = some value ∧ value.toInt = capacity)) ∧
      (∀ other, Params.SameOn type.parameterNames params other →
        compiler.layout type params = compiler.layout type other) ∧
      (∀ cache : LayoutCache, cache.SafeFor type →
        (LayoutCache.runOn (compiler.cachedLayout params type) cache).1 =
          compiler.layout type params) := by
  refine ⟨DataType.nodup_parameterNames buildable, ?_, ?_, ?_⟩
  · intro name
    simp only [DataType.parameterNames_eq_map buildable, List.mem_map,
      DataType.mem_arrayPaths_iff]
    constructor
    · rintro ⟨path, ⟨array, element, reaches⟩, rfl⟩
      exact ⟨path, array, element, reaches, rfl⟩
    · rintro ⟨path, array, element, reaches, rfl⟩
      exact ⟨path, ⟨array, element, reaches⟩, rfl⟩
  · intro path other array array' element element' here there same
    exact DataType.path_of_capacityName buildable
      (DataType.mem_arrayPaths_iff.2 ⟨array, element, here⟩)
      (DataType.mem_arrayPaths_iff.2 ⟨array', element', there⟩) same
  · intro compiler params
    refine ⟨exists_layout_eq_error_iff buildable, fun _ _ _ => layout_eq_refusal, ?_, ?_,
      fun _ => layout_congr, fun _ => runOn_cachedLayout⟩
    · intro e failed
      rcases layout_eq_error buildable failed with ⟨-, about⟩ | ⟨-, record, field, rfl⟩
      · exact Or.inl about
      · exact Or.inr ⟨_, rfl⟩
    · intro layout compiled
      exact ⟨fun _ _ _ => exists_hasPart_array_of_layout compiled, fun _ _ _ _ reaches =>
        ⟨hasPart_array_of_layout compiled reaches, capacity_of_hasPart buildable compiled reaches⟩⟩

/-! ### A map of two sectors

The parameters of the second sector also begin with the name of the first one. -/

/-- A sector with its particles. -/
def sectorType : DataType :=
  .record "Sector" [("particles", .array "Particles" Scene.particleType)]

/-- Two sectors. -/
def mapType : DataType :=
  .record "Map" [("north", sectorType), ("north_east", sectorType)]

/-- Room for two particles in the first sector and for three in the second one. -/
def mapParams : Params :=
  .ofList [("north_particles_capacity", 2), ("north_east_particles_capacity", 3)]

/-- A sector in bytes. -/
def sectorLayout (capacity : Nat) : Layout :=
  .record "Sector" [("particles", .array "Particles" capacity Scene.particleLayout)]

/-- Two sectors in bytes. -/
def mapLayout : Layout :=
  .record "Map" [("north", sectorLayout 2), ("north_east", sectorLayout 3)]

/-- The map can be built. -/
theorem buildable_mapType : mapType.Buildable := by
  have sector : sectorType.Buildable := by
    have built : DataType.ofFields "Sector"
        [("particles", .array "Particles" Scene.particleType)] = .ok sectorType := rfl
    exact .record (by simp [Scene.buildable_particles]) built
  have built : DataType.ofFields "Map" [("north", sectorType), ("north_east", sectorType)] =
      .ok mapType := rfl
  exact .record (by simp [sector]) built

/-- The layout of the map. -/
theorem layout_mapType : (Compiler.mk .aligned 5000).layout mapType mapParams = .ok mapLayout := rfl

/-- The second sector has room for three particles, as the parameter with its name says. -/
theorem routing_of_parameters_map :
    mapType.Buildable ∧ (Compiler.mk .aligned 5000).layout mapType mapParams = .ok mapLayout ∧
      mapLayout.HasPart [.field "north_east", .field "particles"]
        (.array "Particles" 3 Scene.particleLayout) ∧
      ∃ value, mapParams.get? "north_east_particles_capacity" = some value ∧ value.toInt = 3 := by
  have reaches : mapLayout.HasPart [.field "north_east", .field "particles"]
      (.array "Particles" 3 Scene.particleLayout) :=
    .field (List.mem_cons_of_mem _ List.mem_cons_self) (.field List.mem_cons_self (.here _))
  obtain ⟨-, -, -, routed⟩ := routing_of_parameters buildable_mapType
  obtain ⟨-, -, -, arrays, -⟩ := routed (Compiler.mk .aligned 5000) mapParams
  exact ⟨buildable_mapType, layout_mapType, reaches,
    ((arrays mapLayout layout_mapType).2 _ _ _ _ reaches).2⟩

end Compiler

end DeviceBlob
