import DeviceBlob.Layout.Compile
import DeviceBlob.Proofs.Buildable
import DeviceBlob.Proofs.Params

/-!
# How a type is laid out

What a successful compilation has done (`layout_eq_ok_iff`, `place_record_eq_ok_iff`,
`place_array_eq_ok_iff`), and where the declared parts of a layout are: each starts behind those
before it (`getElem_fields`).
-/

namespace DeviceBlob

namespace Layout

/-! ### Declared parts -/

/-- Each field gets a place. -/
theorem length_placeFields : ∀ (offset : Nat) (fields : List (String × Layout)),
    (placeFields offset fields).length = fields.length
  | _, [] => rfl
  | offset, (_, layout) :: rest => by
    simp [placeFields, length_placeFields (offset + layout.size) rest]

/-- A declared part starts where the parts before it end. -/
theorem getElem_placeFields : ∀ (offset : Nat) (fields : List (String × Layout)) (i : Nat)
    (h : i < fields.length) (h' : i < (placeFields offset fields).length),
    (placeFields offset fields)[i] =
      ⟨fields[i].1, offset + fieldsSize (fields.take i), fields[i].2⟩
  | _, [], _, h, _ => absurd h (Nat.not_lt_zero _)
  | offset, (name, layout) :: rest, 0, _, _ => by simp [placeFields]
  | offset, (name, layout) :: rest, i + 1, h, h' => by
    have ih := getElem_placeFields (offset + layout.size) rest i
      (by simpa using h) (by simpa [placeFields] using h')
    simp only [placeFields, List.getElem_cons_succ, List.take_succ_cons, fieldsSize_cons]
    rw [ih]
    simp only [Field.mk.injEq, true_and, and_true]
    omega

/-- A layout has a place for each field that it declares. -/
theorem length_fields (layout : Layout) :
    layout.fields.length = layout.declaredFields.length :=
  length_placeFields 0 layout.declaredFields

/-- A field starts where the fields in front of it end. -/
theorem getElem_fields (layout : Layout) (i : Nat) (h : i < layout.declaredFields.length)
    (h' : i < layout.fields.length) :
    layout.fields[i] = ⟨layout.declaredFields[i].1, fieldsSize (layout.declaredFields.take i),
      layout.declaredFields[i].2⟩ := by
  have placed := getElem_placeFields 0 layout.declaredFields i h h'
  rw [Nat.zero_add] at placed
  exact placed

/-- Fields behind others take the bytes behind theirs. -/
theorem fieldsSize_append : ∀ (a b : List (String × Layout)),
    fieldsSize (a ++ b) = fieldsSize a + fieldsSize b
  | [], b => by simp
  | field :: rest, b => by
    rw [List.cons_append, fieldsSize_cons, fieldsSize_cons, fieldsSize_append rest b]
    omega

/-- The declared parts of a layout are no larger than the layout; those of an array are its header
only. -/
theorem fieldsSize_declaredFields_le : ∀ layout : Layout,
    fieldsSize layout.declaredFields ≤ layout.size
  | record _ _ | scalar _ | enum _ | padding _ => Nat.le_refl _
  | array _ _ _ => Nat.le_add_right _ _

/-! ### Places -/

mutual

/-- A place is inside the layout that it is a place of. -/
theorem bounds_of_mem_placesAt {address : String} : ∀ {layout : Layout} {offset : Nat}
    {place : Field}, place ∈ placesAt address offset layout →
      offset ≤ place.offset ∧ place.offset + place.content.size ≤ offset + layout.size
  | scalar _, _, _, mem | enum _, _, _, mem | padding _, _, _, mem | array _ _ _, _, _, mem => by
    simp only [placesAt, List.mem_singleton] at mem
    subst mem
    exact ⟨Nat.le_refl _, Nat.le_refl _⟩
  | record _ _, _, _, mem => bounds_of_mem_placeAccessors mem

/-- The accessors of consecutive fields are inside the bytes of the fields. -/
theorem bounds_of_mem_placeAccessors {address : String} : ∀ {fields : List (String × Layout)}
    {offset : Nat} {place : Field}, place ∈ placeAccessors address offset fields →
      offset ≤ place.offset ∧ place.offset + place.content.size ≤ offset + fieldsSize fields
  | [], _, _, mem => absurd mem List.not_mem_nil
  | (_, layout) :: rest, offset, place, mem => by
    show offset ≤ place.offset ∧
      place.offset + place.content.size ≤ offset + (layout.size + fieldsSize rest)
    rcases List.mem_append.1 mem with mem | mem
    · have inside := bounds_of_mem_placesAt mem
      omega
    · have inside := bounds_of_mem_placeAccessors mem
      omega

end

/-! ### Compilation -/

/-- Fields make a layout exactly if their accessors have different names. -/
theorem ofFields_eq_ok_iff {name : String} {fields : List (String × Layout)} {layout : Layout} :
    ofFields name fields = .ok layout ↔
      layout = record name fields ∧ ((placeAccessors "" 0 fields).map (·.name)).Nodup := by
  unfold ofFields
  cases shared : DataType.repeated? [] ((placeAccessors "" 0 fields).map (·.name)) with
  | some field =>
    simp only [reduceCtorEq, false_iff]
    rintro ⟨-, nodup⟩
    have := (@DataType.repeated?_eq_none_iff [] _).2 ⟨by simp, nodup⟩
    simp [this] at shared
  | none =>
    have nodup := (DataType.repeated?_eq_none_iff.1 shared).2
    simp [nodup, eq_comm]

/-- Fields make no layout if two accessors have one name, and the error says which. -/
theorem ofFields_eq_error {name : String} {fields : List (String × Layout)} {e : Error}
    (h : ofFields name fields = .error e) :
    ∃ field, e = .invalidSchema (.flattenedTwice name field) := by
  unfold ofFields at h
  split at h
  · next field _ =>
    cases h
    exact ⟨field, rfl⟩
  · cases h

/-- An array gets its capacity exactly if the parameter is there and not negative. -/
theorem capacityOf_eq_ok_iff {typeName : String} {params : Params} {capacity : Nat} :
    capacityOf typeName params = .ok capacity ↔
      ∃ value, params.get? DataType.capacityParameter = some value ∧ 0 ≤ value.toInt ∧
        capacity = value.toInt.toNat := by
  unfold capacityOf
  cases params.get? DataType.capacityParameter with
  | none => simp
  | some value =>
    by_cases fine : 0 ≤ value.toInt
    · simp [fine, eq_comm]
    · simp [fine]

variable {packing : Packing} {params : Params}

/-- A record has a layout exactly if its fields have layouts and no two accessors share a name. -/
theorem place_record_eq_ok_iff {name : String} {fields : List (String × DataType)}
    {layout : Layout} :
    place packing params (.record name fields) = .ok layout ↔
      ∃ parts, placeAll packing params (VectorRun.padded packing fields) 0 fields = .ok parts ∧
        ((placeAccessors "" 0 parts).map (·.name)).Nodup ∧ layout = record name parts := by
  simp only [place, bind_eq_ok, ofFields_eq_ok_iff]
  constructor
  · rintro ⟨parts, placed, rfl, nodup⟩
    exact ⟨parts, placed, nodup, rfl⟩
  · rintro ⟨parts, placed, nodup, rfl⟩
    exact ⟨parts, placed, rfl, nodup⟩

/-- An array has a layout exactly if it has a capacity and its elements have a layout. -/
theorem place_array_eq_ok_iff {name : String} {element : DataType} {layout : Layout} :
    place packing params (.array name element) = .ok layout ↔
      ∃ capacity item, capacityOf name params = .ok capacity ∧
        place packing (params.inside DataType.itemPrefix) element = .ok item ∧
          layout = array name capacity item := by
  simp only [place, bind_eq_ok, pure_eq_ok]
  constructor
  · rintro ⟨capacity, found, item, placed, rfl⟩
    exact ⟨capacity, item, found, placed, rfl⟩
  · rintro ⟨capacity, item, found, placed, rfl⟩
    exact ⟨capacity, found, item, placed, rfl⟩

/-- Fields have layouts exactly if the first one has a layout and so have the others behind it. -/
theorem placeAll_cons_eq_ok_iff {runs : List VectorRun} {position : Nat} {name : String}
    {type : DataType} {rest : List (String × DataType)} {parts : List (String × Layout)} :
    placeAll packing params runs position ((name, type) :: rest) = .ok parts ↔
      ∃ layout others, place packing (params.inside name) type = .ok layout ∧
        placeAll packing params runs (position + 1) rest = .ok others ∧
          parts = (name, layout) :: (paddingBehind runs position ++ others) := by
  simp only [placeAll, bind_eq_ok, pure_eq_ok]
  constructor
  · rintro ⟨layout, here, others, there, rfl⟩
    exact ⟨layout, others, here, there, rfl⟩
  · rintro ⟨layout, others, here, there, rfl⟩
    exact ⟨layout, here, others, there, rfl⟩

end Layout

/-- A layout is that of the type under exactly the parameters that the type depends on. -/
theorem Compiler.layout_eq_ok_iff {compiler : Compiler} {type : DataType} {params : Params}
    {layout : Layout} :
    compiler.layout type params = .ok layout ↔
      ∃ required, params.requiredBy type compiler.maxParameter = .ok required ∧
        Layout.place compiler.packing required type = .ok layout := by
  simp only [Compiler.layout, bind_eq_ok]

/-! ### A scene of particles

The types that the examples of this library are about: a scene with a frame number and an array of
particles, each with a position of three components and a state. -/

namespace Scene

/-- The states of a particle. -/
def stateType : EnumType where
  name := "State"
  labels := ⟨[(1, "idle"), (2, "moving")], by decide⟩
  ordinal_ne_zero := by decide
  label_declarable := by decide
  labels_nodup := by decide

/-- A particle. -/
def particleType : DataType :=
  .record "Particle" [("index", .scalar .int32), ("x", .scalar .float32), ("y", .scalar .float32),
    ("z", .scalar .float32), ("state", .enum stateType)]

/-- A scene with its particles. -/
def sceneType : DataType :=
  .record "Scene" [("frame", .scalar .uint32), ("particles", .array "Particles" particleType)]

/-- Room for two particles. -/
def params : Params := .ofList [("particles_capacity", 2)]

/-- A particle in bytes: there is padding behind the position. -/
def particleLayout : Layout :=
  .record "Particle" [("index", .scalar .int32), ("x", .scalar .float32), ("y", .scalar .float32),
    ("z", .scalar .float32), ("padding", .padding .float32), ("state", .enum stateType)]

/-- A scene of two particles in bytes. -/
def sceneLayout : Layout :=
  .record "Scene"
    [("frame", .scalar .uint32), ("particles", .array "Particles" 2 particleLayout)]

/-- Particles can be built. -/
theorem buildable_particleType : particleType.Buildable := by
  have built : DataType.ofFields "Particle" [("index", .scalar .int32), ("x", .scalar .float32),
      ("y", .scalar .float32), ("z", .scalar .float32), ("state", .enum stateType)] =
        .ok particleType := rfl
  refine .record ?_ built
  simp [DataType.Buildable.scalar, DataType.Buildable.enum]

/-- So can arrays of them. -/
theorem buildable_particles : (DataType.array "Particles" particleType).Buildable := by
  have built : DataType.ofElement "Particles" particleType = .ok (.array "Particles" particleType) :=
    rfl
  exact .array buildable_particleType built

/-- So can a scene. -/
theorem buildable_sceneType : sceneType.Buildable := by
  have built : DataType.ofFields "Scene"
      [("frame", .scalar .uint32), ("particles", .array "Particles" particleType)] =
        .ok sceneType := rfl
  refine .record ?_ built
  simp [DataType.Buildable.scalar, buildable_particles]

/-- This is how a scene of two particles is laid out. -/
theorem layout_sceneType : (Compiler.mk .aligned 5000).layout sceneType params = .ok sceneLayout :=
  rfl

end Scene

end DeviceBlob
