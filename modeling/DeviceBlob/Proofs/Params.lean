import DeviceBlob.Params
import DeviceBlob.Proofs.Buildable
import DeviceBlob.Proofs.SortedMap

/-!
# Parameters of parts

A part of a type sees the parameters below its own name: `get?_inside` says that what it sees under
a name is what the whole has under the joined name.  `requiredBy_ok` says what a successful check of
the parameters of a type has made sure of, and `requiredBy_congr` that other parameters do not
matter; `requiredBy_eq_error_iff` says which parameter a failed check names.
-/

namespace DeviceBlob.Params

/-- A parameter that was set is found, the others as before. -/
theorem get?_insert (params : Params) (name other : String) (value : Int64) :
    (params.insert name value).get? other =
      if other = name then some value else params.get? other :=
  SortedMap.get?_insert params.values name other value

/-- Of two sets of parameters the second wins. -/
theorem get?_union (params other : Params) (name : String) :
    (params.union other).get? name = (other.get? name).or (params.get? name) :=
  SortedMap.get?_union params.values other.values name

/-! ### Scopes -/

/-- What a part sees under a name is the value of a parameter with that name below its own. -/
theorem get?_inside_eq_some_iff {params : Params} {parent child : String} {value : Int64} :
    (params.inside parent).get? child = some value ↔
      ∃ name, Name.within? parent name = some child ∧ params.get? name = some value := by
  have nodup : ((params.toList.filterMap fun entry =>
      (Name.within? parent entry.1).map (·, entry.2)).map (·.1)).Nodup := by
    have keys : ((params.toList.filterMap fun entry =>
        (Name.within? parent entry.1).map (·, entry.2)).map (·.1)) =
          (params.toList.map (·.1)).filterMap (Name.within? parent) := by
      rw [List.map_filterMap, List.filterMap_map]
      congr 1
      funext entry
      simp [Option.map_map, Function.comp_def]
    rw [keys]
    refine params.values.nodup_keys.filterMap ?_
    intro name other rest here there
    have := Name.within?_eq_some_iff.1 here
    have := Name.within?_eq_some_iff.1 there
    exact String.toList_inj.1 (by simp_all)
  have held := @SortedMap.get?_ofList_eq_some_iff _ _ _ _ _ _ _ nodup child value
  simp only [get?, inside, ofList, toList] at held ⊢
  rw [held]
  simp only [List.mem_filterMap, Option.map_eq_some_iff, Prod.mk.injEq, Prod.exists]
  constructor
  · rintro ⟨name, _, mem, _, within, rfl, rfl⟩
    exact ⟨name, within, SortedMap.get?_eq_some_iff.2 mem⟩
  · rintro ⟨name, within, found⟩
    exact ⟨name, value, SortedMap.get?_eq_some_iff.1 found, child, within, rfl, rfl⟩

/-- What a part sees under a name is what the whole has under the joined name. -/
theorem get?_inside {params : Params} {parent : String} (h : parent ≠ "") (child : String) :
    (params.inside parent).get? child = params.get? (Name.join parent child) := by
  apply Option.ext
  intro value
  rw [get?_inside_eq_some_iff]
  constructor
  · rintro ⟨name, within, found⟩
    rw [Name.within?_eq_some_iff, ← Name.toList_join h, String.toList_inj] at within
    exact within ▸ found
  · intro found
    exact ⟨_, Name.within?_join h child, found⟩

/-- Each parameter of the first set has its value in the second one. -/
def Included (params other : Params) : Prop :=
  ∀ name value, params.get? name = some value → other.get? name = some value

/-- Then so have the parameters of each part. -/
theorem Included.inside {params other : Params} (included : params.Included other)
    (parent : String) : (params.inside parent).Included (other.inside parent) := by
  intro child value found
  obtain ⟨name, within, held⟩ := get?_inside_eq_some_iff.1 found
  exact get?_inside_eq_some_iff.2 ⟨name, within, included name value held⟩

/-- A scope inside a scope is the scope of the joined name. -/
theorem inside_inside {params : Params} {outer inner : String} (ho : outer ≠ "")
    (hi : inner ≠ "") :
    (params.inside outer).inside inner = params.inside (Name.join outer inner) := by
  have joined : Name.join outer inner ≠ "" := Name.join_ne_empty hi
  apply Params.ext
  apply SortedMap.ext_get?
  intro name
  have deep := @get?_inside (params.inside outer) inner hi name
  have flat := @get?_inside params (Name.join outer inner) joined name
  rw [get?_inside ho, ← Name.join_assoc outer inner name hi, ← flat] at deep
  exact deep

/-- What was put under a prefix is found there under the joined name. -/
theorem get?_prefixed (params : Params) (parent child : String) :
    (params.prefixed parent).get? (Name.join parent child) = params.get? child := by
  have keys : (params.toList.map fun entry => (Name.join parent entry.1, entry.2)).map (·.1) =
      (params.toList.map (·.1)).map (Name.join parent) := by
    rw [List.map_map, List.map_map]
    rfl
  have nodup : ((params.toList.map fun entry =>
      (Name.join parent entry.1, entry.2)).map (·.1)).Nodup := by
    rw [keys]
    exact params.values.nodup_keys.map fun _ _ => Name.join_left_cancel
  apply Option.ext
  intro value
  have held := @SortedMap.get?_ofList_eq_some_iff _ _ _ _ _ _ _ nodup (Name.join parent child) value
  have own := @SortedMap.get?_eq_some_iff _ _ _ _ _ params.values child value
  simp only [get?, prefixed, ofList, toList] at held own ⊢
  rw [held, own]
  simp only [List.mem_map, Prod.mk.injEq]
  constructor
  · rintro ⟨⟨name, other⟩, mem, same, rfl⟩
    rwa [← Name.join_left_cancel same]
  · intro mem
    exact ⟨(child, value), mem, rfl, rfl⟩

/-- Parameters that were put under a prefix are what is below it. -/
theorem inside_prefixed {parent : String} (h : parent ≠ "") (params : Params) :
    (params.prefixed parent).inside parent = params := by
  apply Params.ext
  apply SortedMap.ext_get?
  intro name
  exact (get?_inside h name).trans (get?_prefixed params parent name)

/-! ### The naming scheme -/

/-- Addresses and scopes fit together at every level of nesting: snake case obeys the laws of names,
as it would under any lower case that names can rely on, what was put under a prefix is found below
it, and a scope inside a scope is the scope of the joined name. -/
theorem naming_laws :
    Name.IsNaming Name.snake ∧
    Name.snakeBy Text.Letter.lower = Name.snake ∧
    (∀ lower, Name.IsLowering lower → Name.IsNaming (Name.snakeBy lower)) ∧
    ∀ (params : Params) (outer inner : String), outer ≠ "" → inner ≠ "" →
      (params.prefixed outer).inside outer = params ∧
        (params.inside outer).inside inner = params.inside (Name.join outer inner) := by
  refine ⟨Name.isNaming_snake, Name.snakeBy_lower, fun _ lowering => lowering.isNaming_snakeBy, ?_⟩
  intro params outer inner ho hi
  exact ⟨inside_prefixed ho params, inside_inside ho hi⟩

/-- The capacities of a scene whose particles are kept in an array. -/
def sceneCapacities : Params := ofList [("scene_particles_capacity", 7), ("scene_capacity", -1)]

/-- In a scene the fastest particle and the capacity of the particles have the same address from
either end. -/
theorem naming_laws_scene :
    "Scene" ≠ "" ∧ "particles" ≠ "" ∧ Name.IsLowering Text.Letter.lower ∧
    Name.snake (Name.join "Scene" "MaxSpeed") = Name.join "scene" "max_speed" ∧
    (sceneCapacities.prefixed "scene").inside "scene" = sceneCapacities ∧
    ((sceneCapacities.inside "scene").inside "particles").get? "capacity" = some 7 := by
  obtain ⟨names, tables, under, scopes⟩ := naming_laws
  have lowering := Name.isLowering_lower
  have joined := (under Text.Letter.lower lowering).joined "Scene" "MaxSpeed" (by decide)
  have nested := scopes sceneCapacities "scene" "particles" (by decide) (by decide)
  refine ⟨by decide, by decide, lowering, ?_, nested.1, ?_⟩
  · rw [tables] at joined
    rw [joined]
    decide +kernel
  · rw [nested.2]
    decide +kernel

/-! ### The parameters of a type -/

/-- A number is a capacity when it is positive and no larger than the bound. -/
theorem capacity_eq_ok_iff {name : String} {value : Int64} {max : Nat} {capacity : Nat} :
    Params.capacity name value max = .ok capacity ↔
      1 ≤ value.toInt ∧ value.toInt ≤ max ∧ capacity = value.toInt.toNat := by
  unfold Params.capacity
  split
  · next fine => simp [fine, eq_comm]
  · next bad =>
    simp only [reduceCtorEq, false_iff]
    exact fun fine => bad ⟨fine.1, fine.2.1⟩

/-- A parameter is accepted when it is there and is a capacity. -/
theorem require_eq_ok_iff {params : Params} {type name : String} {max : Nat}
    {entry : String × Int64} :
    params.require type max name = .ok entry ↔
      ∃ value, params.get? name = some value ∧ 1 ≤ value.toInt ∧ value.toInt ≤ max ∧
        entry = (name, value) := by
  unfold require
  cases found : params.get? name with
  | none => simp [throw, throwThe, MonadExceptOf.throw]
  | some value =>
    simp only [bind_eq_ok, pure_eq_ok, capacity_eq_ok_iff, Option.some.injEq, exists_eq_left']
    constructor
    · rintro ⟨capacity, ⟨low, high, -⟩, rfl⟩
      exact ⟨low, high, rfl⟩
    · rintro ⟨low, high, rfl⟩
      exact ⟨_, ⟨low, high, rfl⟩, rfl⟩

/-- Parameters that were checked for a type hold all parameters of that type, in range, and each
with the value that it had before. -/
theorem requiredBy_ok {params required : Params} {type : DataType} {max : Nat}
    (h : params.requiredBy type max = .ok required) :
    ∀ name ∈ type.parameterNames, ∃ value, params.get? name = some value ∧
      required.get? name = some value ∧ 1 ≤ value.toInt ∧ value.toInt ≤ max := by
  unfold requiredBy at h
  simp only [bind_eq_ok, pure_eq_ok] at h
  obtain ⟨entries, checked, rfl⟩ := h
  intro name mem
  obtain ⟨entry, held, here⟩ := exists_of_mem_items checked mem
  obtain ⟨value, found, low, high, rfl⟩ := require_eq_ok_iff.1 here
  refine ⟨value, found, ?_, low, high⟩
  refine SortedMap.get?_ofList_of_agree held ?_
  intro other again
  obtain ⟨_, -, there⟩ := exists_of_mem_results checked again
  obtain ⟨value', found', -, -, same⟩ := require_eq_ok_iff.1 there
  cases same
  rw [found] at found'
  exact (Option.some.inj found').symm

/-- A check keeps values as they are. -/
theorem included_of_requiredBy {params required : Params} {type : DataType} {max : Nat}
    (h : params.requiredBy type max = .ok required) : required.Included params := by
  unfold requiredBy at h
  simp only [bind_eq_ok, pure_eq_ok] at h
  obtain ⟨entries, checked, rfl⟩ := h
  intro name value found
  obtain ⟨other, -, here⟩ := exists_of_mem_results checked (SortedMap.mem_of_get?_ofList found)
  obtain ⟨_, held, -, -, same⟩ := require_eq_ok_iff.1 here
  cases same
  exact held

/-- Parameters in range pass the check. -/
theorem exists_requiredBy_eq_ok {params : Params} {type : DataType} {max : Nat}
    (h : ∀ name ∈ type.parameterNames, ∃ value, params.get? name = some value ∧
      1 ≤ value.toInt ∧ value.toInt ≤ max) :
    ∃ required, params.requiredBy type max = .ok required := by
  have each : ∀ name ∈ type.parameterNames,
      ∃ entry, params.require type.name max name = .ok entry := by
    intro name mem
    obtain ⟨value, found, low, high⟩ := h name mem
    exact ⟨(name, value), require_eq_ok_iff.2 ⟨value, found, low, high, rfl⟩⟩
  obtain ⟨entries, ok⟩ := exists_mapM_eq_ok each
  refine ⟨ofList entries, ?_⟩
  rw [requiredBy, ok]
  rfl

/-- Only the parameters that a type depends on matter. -/
theorem requiredBy_congr {params other : Params} {type : DataType} {max : Nat}
    (same : ∀ name ∈ type.parameterNames, params.get? name = other.get? name) :
    params.requiredBy type max = other.requiredBy type max := by
  have each : type.parameterNames.mapM (params.require type.name max) =
      type.parameterNames.mapM (other.require type.name max) := by
    apply mapM_congr
    intro name mem
    rw [require, require, same name mem]
  rw [requiredBy, requiredBy, each]

/-! ### Parameters in range -/

/-- The named parameters are there and can be capacities. -/
def InRange (max : Nat) (names : List String) (params : Params) : Prop :=
  ∀ name ∈ names, ∃ value, params.get? name = some value ∧ 1 ≤ value.toInt ∧ value.toInt ≤ max

/-- Parameters in range below a prefix are in range inside of it. -/
theorem InRange.inside {max : Nat} {names : List String} {prefixName : String}
    {params : Params} (named : prefixName ≠ "")
    (range : InRange max (names.map (Name.join prefixName)) params) :
    InRange max names (params.inside prefixName) := by
  intro name mem
  rw [get?_inside named]
  exact range _ (List.mem_map_of_mem mem)

/-- The parameter with the given name is there and can be a capacity. -/
def Admits (params : Params) (max : Nat) (name : String) : Prop :=
  ∃ value, params.get? name = some value ∧ 1 ≤ value.toInt ∧ value.toInt ≤ max

/-- What is said of a parameter that is not admitted: it is missing, or its value is no capacity. -/
def refusal (params : Params) (type : String) (max : Nat) (name : String) : Error :=
  match params.get? name with
  | none => .missingParameter type name
  | some value => .invalidParameter name value max

/-- A parameter is accepted exactly when it is admitted. -/
theorem exists_require_eq_ok_iff {params : Params} {type name : String} {max : Nat} :
    (∃ entry, params.require type max name = .ok entry) ↔ params.Admits max name := by
  simp only [require_eq_ok_iff]
  constructor
  · rintro ⟨_, value, found, low, high, -⟩
    exact ⟨value, found, low, high⟩
  · rintro ⟨value, found, low, high⟩
    exact ⟨(name, value), value, found, low, high, rfl⟩

/-- A parameter that is not admitted is refused for the reason that `refusal` gives. -/
theorem require_eq_error_iff {params : Params} {type name : String} {max : Nat} {e : Error} :
    params.require type max name = .error e ↔
      ¬params.Admits max name ∧ e = params.refusal type max name := by
  unfold require refusal Admits Params.capacity
  cases params.get? name with
  | none => simp [throw, throwThe, MonadExceptOf.throw, eq_comm]
  | some value =>
    by_cases fine : 1 ≤ value.toInt ∧ value.toInt ≤ max
    · simp [fine, pure, Except.pure]
    · simp [fine, eq_comm]

/-- The check of the parameters of a type fails at the first one that is not admitted. -/
theorem requiredBy_eq_error_iff {params : Params} {type : DataType} {max : Nat} {e : Error} :
    params.requiredBy type max = .error e ↔ ∃ front name back,
      type.parameterNames = front ++ name :: back ∧ (∀ other ∈ front, params.Admits max other) ∧
        ¬params.Admits max name ∧ e = params.refusal type.name max name := by
  simp only [requiredBy, bind_eq_error, mapM_eq_error_iff, exists_require_eq_ok_iff,
    require_eq_error_iff]
  constructor
  · rintro (refused | ⟨_, -, none⟩)
    · exact refused
    · cases none
  · exact Or.inl

end DeviceBlob.Params

namespace DeviceBlob

/-- The error is about a parameter: it is missing or out of range. -/
def Error.IsAboutParameter : Error → Prop
  | missingParameter _ _ => True
  | invalidParameter _ _ _ => True
  | _ => False

/-- A refusal is about the parameter that is refused. -/
theorem Params.isAboutParameter_refusal (params : Params) (type : String) (max : Nat)
    (name : String) : (params.refusal type max name).IsAboutParameter := by
  unfold refusal
  cases params.get? name <;> trivial

/-- A check of parameters fails because of a parameter only. -/
theorem Params.failsOnly_requiredBy (params : Params) (type : DataType) (max : Nat) :
    FailsOnly Error.IsAboutParameter (params.requiredBy type max) := by
  intro e failed
  obtain ⟨_, name, _, -, -, -, rfl⟩ := requiredBy_eq_error_iff.1 failed
  exact isAboutParameter_refusal params type.name max name

end DeviceBlob
