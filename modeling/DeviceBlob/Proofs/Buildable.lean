import DeviceBlob.DataType
import DeviceBlob.Proofs.Name
import DeviceBlob.Proofs.Outcome
import Mathlib.Data.List.Nodup

/-!
# Types made by the checked constructors

`Buildable` types are those that `ofFields` and `ofElement` accept, all the way down.  What the two
check is said once here (`ofFields_eq_ok_iff`, `ofElement_eq_ok_iff`); the rest of the library takes
from it that fields are named, that their names differ, and that every element of an array starts
with its index.

The parameters of a part are those of the whole under longer names: `parametersUnder_eq_map` says
that a parent only puts its name in front.
-/

namespace DeviceBlob

namespace DataType

/-! ### What the constructors check -/

/-- A list of names passes if each is a name and none stands before its place already. -/
theorem badName?_eq_none_iff : ∀ {seen names : List String},
    badName? seen names = none ↔
      (∀ name ∈ names, name ≠ "" ∧ name ∉ seen) ∧ names.Nodup
  | seen, [] => by simp [badName?]
  | seen, name :: rest => by
    rw [badName?]
    by_cases bad : name.isEmpty || seen.contains name
    · simp only [bad, if_true, reduceCtorEq, false_iff]
      rintro ⟨fine, -⟩
      have := fine name List.mem_cons_self
      simp_all
    · have fine : name ≠ "" ∧ name ∉ seen := by simpa [not_or] using bad
      simp only [bad, if_false, badName?_eq_none_iff, List.mem_cons, not_or, List.nodup_cons,
        Bool.false_eq_true]
      constructor
      · rintro ⟨others, nodup⟩
        refine ⟨?_, fun again => (others name again).2.1 rfl, nodup⟩
        rintro other (rfl | mem)
        · exact fine
        · exact ⟨(others other mem).1, (others other mem).2.2⟩
      · rintro ⟨all, new, nodup⟩
        refine ⟨fun other mem => ⟨(all other (Or.inr mem)).1, ?_, (all other (Or.inr mem)).2⟩, nodup⟩
        rintro rfl
        exact new mem

/-- A list repeats nothing if none of it stands before its place already. -/
theorem repeated?_eq_none_iff : ∀ {seen names : List String},
    repeated? seen names = none ↔ (∀ name ∈ names, name ∉ seen) ∧ names.Nodup
  | seen, [] => by simp [repeated?]
  | seen, name :: rest => by
    rw [repeated?]
    by_cases bad : seen.contains name
    · simp only [bad, if_true, reduceCtorEq, false_iff]
      rintro ⟨fine, -⟩
      have := fine name List.mem_cons_self
      simp_all
    · have fine : name ∉ seen := by simpa using bad
      simp only [bad, if_false, repeated?_eq_none_iff, List.mem_cons, not_or, List.nodup_cons,
        Bool.false_eq_true]
      constructor
      · rintro ⟨others, nodup⟩
        refine ⟨?_, fun again => (others name again).1 rfl, nodup⟩
        rintro other (rfl | mem)
        · exact fine
        · exact (others other mem).2
      · rintro ⟨all, new, nodup⟩
        refine ⟨fun other mem => ⟨?_, all other (Or.inr mem)⟩, nodup⟩
        rintro rfl
        exact new mem

/-- What it takes to be a record. -/
theorem ofFields_eq_ok_iff {name : String} {fields : List (String × DataType)} {type : DataType} :
    ofFields name fields = .ok type ↔
      type = record name fields ∧ name ≠ "" ∧ fields ≠ [] ∧ (∀ field ∈ fields, field.1 ≠ "") ∧
        (fields.map (·.1)).Nodup ∧ (record name fields).parameterNames.Nodup := by
  unfold ofFields
  by_cases unnamed : name.isEmpty
  · have : name = "" := by simpa using unnamed
    simp [this]
  by_cases none : fields.isEmpty
  · have : fields = [] := by simpa using none
    simp [this, unnamed]
  simp only [unnamed, none, if_false, Bool.false_eq_true]
  have named : name ≠ "" := by simpa using unnamed
  have some : fields ≠ [] := by simpa using none
  cases bad : badName? [] (fields.map (·.1)) with
  | some field =>
    have : ¬((∀ field ∈ fields, field.1 ≠ "") ∧ (fields.map (·.1)).Nodup) := by
      intro fine
      have := (@badName?_eq_none_iff [] _).2 ⟨by simpa using fine.1, fine.2⟩
      simp [this] at bad
    simp only [reduceCtorEq, false_iff]
    rintro ⟨-, -, -, all, nodup, -⟩
    exact this ⟨all, nodup⟩
  | none =>
    obtain ⟨all, nodup⟩ := badName?_eq_none_iff.1 bad
    have all : ∀ field ∈ fields, field.1 ≠ "" := by simpa using all
    cases shared : repeated? [] (record name fields).parameterNames with
    | some parameter =>
      simp only [reduceCtorEq, false_iff]
      rintro ⟨-, -, -, -, -, distinct⟩
      have := (@repeated?_eq_none_iff [] _).2 ⟨by simp, distinct⟩
      simp [this] at shared
    | none =>
      have distinct := (repeated?_eq_none_iff.1 shared).2
      simp only [Except.ok.injEq]
      exact ⟨fun same => ⟨same.symm, named, some, all, nodup, distinct⟩, fun h => h.1.symm⟩

/-- An element is a record of which the first field is its index. -/
theorem startsWithIndex_iff {type : DataType} :
    type.startsWithIndex = true ↔
      ∃ name rest, type = record name ((indexField, scalar .int32) :: rest) := by
  unfold startsWithIndex
  cases type with
  | record name fields =>
    rcases fields with _ | ⟨⟨field, content⟩, rest⟩
    · simp [fields?]
    · rcases content with kind | _ | _ | _
      · cases kind <;> simp [fields?]
      all_goals simp [fields?]
  | _ => simp [fields?]

/-- What it takes to be an array. -/
theorem ofElement_eq_ok_iff {name : String} {element type : DataType} :
    ofElement name element = .ok type ↔
      type = array name element ∧ element.startsWithIndex = true := by
  unfold ofElement checkElement
  cases element.startsWithIndex <;> simp [bind, Except.bind, pure, Except.pure, eq_comm]

/-! ### Buildable types -/

/-- A type that the constructors accept, with parts that they accept. -/
inductive Buildable : DataType → Prop
  | scalar (kind : Scalar) : Buildable (scalar kind)
  | enum (type : EnumType) : Buildable (enum type)
  | record {name : String} {fields : List (String × DataType)} {type : DataType}
      (parts : ∀ field ∈ fields, Buildable field.2) (built : ofFields name fields = .ok type) :
      Buildable type
  | array {name : String} {element type : DataType}
      (part : Buildable element) (built : ofElement name element = .ok type) : Buildable type

/-- A record that can be built is what its fields make. -/
theorem Buildable.ofFields_eq_ok {name : String} {fields : List (String × DataType)}
    (h : Buildable (.record name fields)) : ofFields name fields = .ok (.record name fields) := by
  cases h with
  | record parts built =>
    obtain ⟨same, -⟩ := ofFields_eq_ok_iff.1 built
    cases same
    exact built
  | array part built => cases (ofElement_eq_ok_iff.1 built).1

/-- The fields of a record that can be built can be built. -/
theorem Buildable.of_mem_fields {name : String} {fields : List (String × DataType)}
    (h : Buildable (.record name fields)) : ∀ field ∈ fields, Buildable field.2 := by
  cases h with
  | record parts built =>
    cases (ofFields_eq_ok_iff.1 built).1
    exact parts
  | array part built => cases (ofElement_eq_ok_iff.1 built).1

/-- They have names. -/
theorem Buildable.named {name : String} {fields : List (String × DataType)}
    (h : Buildable (.record name fields)) : ∀ field ∈ fields, field.1 ≠ "" :=
  (ofFields_eq_ok_iff.1 h.ofFields_eq_ok).2.2.2.1

/-- The elements of an array that can be built can be built. -/
theorem Buildable.element {name : String} {element : DataType}
    (h : Buildable (.array name element)) : Buildable element := by
  cases h with
  | record parts built => cases (ofFields_eq_ok_iff.1 built).1
  | array part built =>
    cases (ofElement_eq_ok_iff.1 built).1
    exact part

/-- They start with an index. -/
theorem Buildable.startsWithIndex {name : String} {element : DataType}
    (h : Buildable (.array name element)) : element.startsWithIndex = true := by
  cases h with
  | record parts built => cases (ofFields_eq_ok_iff.1 built).1
  | array part built =>
    obtain ⟨same, starts⟩ := ofElement_eq_ok_iff.1 built
    cases same
    exact starts

/-! ### Parameters of parts -/

/-- The parameters of an array are its capacity and those of its elements. -/
theorem parametersUnder_array (parent name : String) (element : DataType) :
    parametersUnder parent (array name element) =
      Name.join parent capacityParameter ::
        parametersUnder (Name.join parent itemPrefix) element := rfl

mutual

/-- A parent puts its name before the parameters of a type. -/
theorem parametersUnder_eq_map : ∀ {type : DataType} (parent : String), type.Buildable →
    parametersUnder parent type = type.parameterNames.map (Name.join parent)
  | scalar _, _, _ => rfl
  | enum _, _, _ => rfl
  | record _ fields, parent, h => fieldParameters_eq_map parent h.named h.of_mem_fields
  | array _ element, parent, h => by
    have item : itemPrefix ≠ "" := by decide
    simp only [parameterNames, parametersUnder_array, Name.join_empty, List.map_cons]
    rw [parametersUnder_eq_map _ h.element, parametersUnder_eq_map itemPrefix h.element,
      List.map_map]
    congr 2
    funext name
    exact Name.join_assoc parent itemPrefix name item

/-- A parent puts its name before the parameters of fields. -/
theorem fieldParameters_eq_map : ∀ {fields : List (String × DataType)} (parent : String),
    (∀ field ∈ fields, field.1 ≠ "") → (∀ field ∈ fields, Buildable field.2) →
      fieldParameters parent fields = (fieldParameters "" fields).map (Name.join parent)
  | [], _, _, _ => rfl
  | (name, type) :: rest, parent, named, parts => by
    have here : name ≠ "" := named (name, type) List.mem_cons_self
    have buildable : type.Buildable := parts (name, type) List.mem_cons_self
    simp only [fieldParameters, List.map_append, Name.join_empty]
    rw [parametersUnder_eq_map _ buildable, parametersUnder_eq_map name buildable, List.map_map,
      fieldParameters_eq_map parent (fun field mem => named field (List.mem_cons_of_mem _ mem))
        (fun field mem => parts field (List.mem_cons_of_mem _ mem))]
    congr 2
    funext child
    exact Name.join_assoc parent name child here

end

/-- The parameters of a field are parameters of its record. -/
theorem join_mem_parameterNames {name : String} {fields : List (String × DataType)}
    {field : String × DataType} (h : (record name fields).Buildable) (mem : field ∈ fields)
    {parameter : String} (here : parameter ∈ field.2.parameterNames) :
    Name.join field.1 parameter ∈ (record name fields).parameterNames := by
  have among : ∀ {others : List (String × DataType)}, field ∈ others →
      ∀ p ∈ parametersUnder field.1 field.2, p ∈ fieldParameters "" others := by
    intro others
    induction others with
    | nil => simp
    | cons other rest ih =>
      intro mem p hp
      simp only [fieldParameters, Name.join_empty, List.mem_append]
      rcases List.mem_cons.1 mem with rfl | mem
      · exact Or.inl hp
      · exact Or.inr (ih mem p hp)
  apply among mem
  rw [parametersUnder_eq_map _ (h.of_mem_fields field mem)]
  exact List.mem_map_of_mem here

/-- The parameters of the elements are parameters of their array. -/
theorem join_item_mem_parameterNames {name : String} {element : DataType}
    (h : (array name element).Buildable) {parameter : String}
    (here : parameter ∈ element.parameterNames) :
    Name.join itemPrefix parameter ∈ (array name element).parameterNames := by
  simp only [parameterNames, parametersUnder_array, Name.join_empty]
  rw [parametersUnder_eq_map _ h.element]
  exact List.mem_cons_of_mem _ (List.mem_map_of_mem here)

/-- An array depends on its capacity. -/
theorem capacity_mem_parameterNames (name : String) (element : DataType) :
    capacityParameter ∈ (array name element).parameterNames := by
  simp [parameterNames, parametersUnder_array]

end DataType

end DeviceBlob
