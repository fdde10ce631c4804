import DeviceBlob.Proofs.Layout.Fields

/-!
# What the layouts of buildable types have in common

A `WellFormed` layout has names for all its parts, no two of its places share a name, and the
elements of its arrays start with their index.  `wellFormed_of_layout` says that the compiler makes
no other layouts of buildable types, and `valueNames_of_placeAll` that the fields of a record keep
their names and their order.
-/

namespace DeviceBlob.Layout

/-- The layout is that of an array element: a record of which the first field is its index. -/
def StartsWithIndex (layout : Layout) : Prop :=
  ∃ name rest, layout = record name ((DataType.indexField, scalar .int32) :: rest)

mutual

/-- The parts of the layout are named, its places have different names, and the elements of arrays
start with their index. -/
def WellFormed : Layout → Prop
  | record _ fields =>
    FieldsWellFormed fields ∧ ((placeAccessors "" 0 fields).map (·.name)).Nodup
  | array _ _ element => element.StartsWithIndex ∧ WellFormed element
  | _ => True

/-- The same for consecutive fields, apart from the names of their places. -/
def FieldsWellFormed : List (String × Layout) → Prop
  | [] => True
  | (name, layout) :: rest => name ≠ "" ∧ WellFormed layout ∧ FieldsWellFormed rest

end

/-- The layouts of arrays are arrays. -/
theorem isArray_iff {layout : Layout} :
    layout.isArray = true ↔
      ∃ name capacity element, layout = array name capacity element := by
  cases layout <;> simp [isArray]

/-- An element has room for its index. -/
theorem StartsWithIndex.four_le_size {element : Layout} (h : element.StartsWithIndex) :
    4 ≤ element.size := by
  obtain ⟨name, rest, rfl⟩ := h
  simp only [size_record, fieldsSize_cons, size_scalar, Scalar.width]
  omega

/-- An element is not padding. -/
theorem StartsWithIndex.isPadding {element : Layout} (h : element.StartsWithIndex) :
    element.isPadding = false := by
  obtain ⟨name, rest, rfl⟩ := h
  rfl

/-- The fields of a well-formed record have names. -/
theorem FieldsWellFormed.named {field : String × Layout} : ∀ {fields : List (String × Layout)},
    FieldsWellFormed fields → field ∈ fields → field.1 ≠ ""
  | [], _, mem => absurd mem List.not_mem_nil
  | (_, _) :: _, formed, mem => by
    rcases List.mem_cons.1 mem with rfl | mem
    · exact formed.1
    · exact formed.2.2.named mem

/-- Well-formed fields can stand behind others. -/
theorem fieldsWellFormed_append : ∀ {a b : List (String × Layout)},
    FieldsWellFormed a → FieldsWellFormed b → FieldsWellFormed (a ++ b)
  | [], _, _, there => there
  | (_, _) :: _, _, here, there =>
    ⟨here.1, here.2.1, fieldsWellFormed_append here.2.2 there⟩

/-- Padding is well-formed. -/
theorem fieldsWellFormed_paddingBehind (runs : List VectorRun) (position : Nat) :
    FieldsWellFormed (paddingBehind runs position) := by
  unfold paddingBehind
  cases runs.find? (·.last = position) with
  | none => trivial
  | some run => exact ⟨Name.join_ne_empty (by decide), trivial, trivial⟩

/-- A type that starts with an index has layouts that do. -/
theorem startsWithIndex_of_place {packing : Packing} {params : Params} {type : DataType}
    {layout : Layout} (starts : type.startsWithIndex = true)
    (placed : place packing params type = .ok layout) : layout.StartsWithIndex := by
  obtain ⟨name, rest, rfl⟩ := DataType.startsWithIndex_iff.1 starts
  obtain ⟨parts, all, -, rfl⟩ := place_record_eq_ok_iff.1 placed
  obtain ⟨index, others, here, -, rfl⟩ := placeAll_cons_eq_ok_iff.1 all
  simp only [place, Except.ok.injEq] at here
  subst here
  exact ⟨name, _, rfl⟩

mutual

/-- A type that can be built has a well-formed layout. -/
theorem wellFormed_of_place {packing : Packing} : ∀ {type : DataType} {params : Params}
    {layout : Layout}, type.Buildable → place packing params type = .ok layout →
      layout.WellFormed
  | .scalar _, _, _, _, placed => by
    simp only [place, Except.ok.injEq] at placed
    subst placed
    trivial
  | .enum _, _, _, _, placed => by
    simp only [place, Except.ok.injEq] at placed
    subst placed
    trivial
  | .array _ _, _, _, buildable, placed => by
    obtain ⟨capacity, item, -, below, rfl⟩ := place_array_eq_ok_iff.1 placed
    exact ⟨startsWithIndex_of_place buildable.startsWithIndex below,
      wellFormed_of_place buildable.element below⟩
  | .record _ _, _, _, buildable, placed => by
    obtain ⟨parts, all, nodup, rfl⟩ := place_record_eq_ok_iff.1 placed
    exact ⟨fieldsWellFormed_of_placeAll buildable.named buildable.of_mem_fields all, nodup⟩

/-- So have its fields. -/
theorem fieldsWellFormed_of_placeAll {packing : Packing} {runs : List VectorRun} :
    ∀ {fields : List (String × DataType)} {position : Nat} {params : Params}
      {parts : List (String × Layout)}, (∀ field ∈ fields, field.1 ≠ "") →
      (∀ field ∈ fields, field.2.Buildable) →
      placeAll packing params runs position fields = .ok parts → FieldsWellFormed parts
  | [], _, _, _, _, _, placed => by
    simp only [placeAll, Except.ok.injEq] at placed
    subst placed
    trivial
  | (name, type) :: rest, position, _, _, named, buildable, placed => by
    obtain ⟨layout, others, here, there, rfl⟩ := placeAll_cons_eq_ok_iff.1 placed
    have behind := fieldsWellFormed_of_placeAll
      (fun field mem => named field (List.mem_cons_of_mem _ mem))
      (fun field mem => buildable field (List.mem_cons_of_mem _ mem)) there
    exact ⟨named _ List.mem_cons_self, wellFormed_of_place (buildable _ List.mem_cons_self) here,
      fieldsWellFormed_append (fieldsWellFormed_paddingBehind runs position) behind⟩

end

/-- The layout of a type carries a value. -/
theorem isPadding_of_place {packing : Packing} {params : Params} {type : DataType}
    {layout : Layout} (placed : place packing params type = .ok layout) :
    layout.isPadding = false := by
  cases type with
  | scalar kind =>
    cases placed
    rfl
  | enum type =>
    cases placed
    rfl
  | record name fields =>
    obtain ⟨parts, -, -, rfl⟩ := place_record_eq_ok_iff.1 placed
    rfl
  | array name element =>
    obtain ⟨capacity, item, -, -, rfl⟩ := place_array_eq_ok_iff.1 placed
    rfl

/-- The layout of a type is not padding. -/
theorem isPadding_of_layout {compiler : Compiler} {type : DataType} {params : Params}
    {layout : Layout} (compiled : compiler.layout type params = .ok layout) :
    layout.isPadding = false := by
  obtain ⟨required, -, placed⟩ := Compiler.layout_eq_ok_iff.1 compiled
  exact isPadding_of_place placed

/-- The compiler makes only well-formed layouts. -/
theorem wellFormed_of_layout {compiler : Compiler} {type : DataType} {params : Params}
    {layout : Layout} (buildable : type.Buildable)
    (compiled : compiler.layout type params = .ok layout) : layout.WellFormed := by
  obtain ⟨required, -, placed⟩ := Compiler.layout_eq_ok_iff.1 compiled
  exact wellFormed_of_place buildable placed

/-! ### Fields with a value -/

/-- The names of the fields that have a value. -/
def valueNames (fields : List (String × Layout)) : List String :=
  (fields.filter fun field => !field.2.isPadding).map (·.1)

/-- The names of values are those of the fields that are not padding. -/
theorem mem_valueNames {name : String} {fields : List (String × Layout)} :
    name ∈ valueNames fields ↔ ∃ layout, (name, layout) ∈ fields ∧ layout.isPadding = false := by
  simp [valueNames]

/-- The fields that have a value are the declared fields of the type, in their order. -/
theorem valueNames_of_placeAll {packing : Packing} {params : Params} {runs : List VectorRun} :
    ∀ {fields : List (String × DataType)} {position : Nat} {parts : List (String × Layout)},
      placeAll packing params runs position fields = .ok parts →
        valueNames parts = fields.map (·.1)
  | [], _, _, placed => by
    cases placed
    rfl
  | (name, type) :: rest, position, _, placed => by
    obtain ⟨layout, others, here, there, rfl⟩ := placeAll_cons_eq_ok_iff.1 placed
    have behind : valueNames (paddingBehind runs position ++ others) = valueNames others := by
      rw [valueNames, List.filter_append, List.map_append]
      unfold paddingBehind
      cases runs.find? (·.last = position) <;> rfl
    have following := valueNames_of_placeAll there
    rw [← behind] at following
    simp only [valueNames, List.filter_cons, isPadding_of_place here, Bool.not_false, if_true,
      List.map_cons]
    exact congrArg (name :: ·) following

end DeviceBlob.Layout
