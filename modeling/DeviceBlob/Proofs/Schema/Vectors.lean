import DeviceBlob.Proofs.Registry
import DeviceBlob.Proofs.VectorRun
import Mathlib.Algebra.GroupWithZero.Nat

/-!
# Vectors that a document declares

A field that is declared with components stands for that many fields of its record, one behind the
other (`expand_eq_ok_iff`), and what a declaration describes is still known under its name when the
document is through (`exists_declared`).  If the fields are scalars then they are the front part of
one vector of the record (`isVector_of_scalar`).  Only enums and records are refused as the type of
components, so this holds unless the type is an array (`vector_iff_not_array`).
-/

namespace DeviceBlob

/-- The number of fields that a declared field stands for. -/
def FieldDecl.width (decl : FieldDecl) : Nat := decl.components.getD 1

namespace VectorRun

variable {fields : List (String × DataType)} {kind : Scalar} {stem : String} {set count start : Nat}

/-- A field with components is declared as that many fields. -/
theorem length_declare {type : DataType} (few : count ≤ 4) :
    (declare stem type count).length = count := by
  simp only [declare, Component.ofLength, List.length_map, List.length_take, List.length_cons,
    List.length_nil]
  omega

/-- The fields tell the type that they were declared with. -/
theorem type_of_declare {type other : DataType} (some : 0 < count)
    (same : declare stem type count = declare stem other count) : type = other := by
  cases count with
  | zero => exact absurd some (Nat.lt_irrefl 0)
  | succ rest => exact (Prod.mk.inj (List.cons.inj same).1).2

/-- The declared components are those of the first set, in its order. -/
theorem component?_declare {i : Nat} (few : count ≤ 4) (inside : i < count) :
    ∃ field, (declare stem (.scalar kind) count)[i]? = some field ∧
      component? field = some (kind, ⟨stem, 0, i⟩) := by
  have names : Component.sets[0]? = some ["x", "y", "z", "w"] := rfl
  obtain ⟨component, here⟩ : ∃ component, ["x", "y", "z", "w"][i]? = some component :=
    ⟨_, List.getElem?_eq_getElem (by simp only [List.length_cons, List.length_nil]; omega)⟩
  have taken : (Component.ofLength count)[i]? = some component := by
    rw [Component.ofLength, List.getElem?_take_of_lt inside, here]
  refine ⟨(Name.join stem component, .scalar kind), ?_, ?_⟩
  · rw [declare, List.getElem?_map, taken, Option.map_some]
  · exact component?_eq_some_iff.2 ⟨_, component, names, here, rfl⟩

/-- Where components stand one behind the other, at least these are counted. -/
theorem le_countFrom (components : ∀ i < count, ∃ field, fields[i]? = some field ∧
    component? field = some (kind, ⟨stem, set, i⟩)) :
    count ≤ countFrom kind ⟨stem, set, 0⟩ fields := by
  have counts : Counts kind stem set 0 fields (countFrom kind ⟨stem, set, 0⟩ fields) :=
    counts_countFrom fields 0
  by_contra less
  obtain ⟨field, found, next⟩ := components _ (Nat.lt_of_not_le less)
  refine counts.stops field found ?_
  rw [Nat.zero_add]
  exact next

/-- Two vectors of a record are the same or have no field in common. -/
theorem eq_or_apart {run other : VectorRun} (here : run ∈ ofFields fields)
    (there : other ∈ ofFields fields) :
    run = other ∨ run.start + run.length ≤ other.start ∨
      other.start + other.length ≤ run.start := by
  have apart := List.pairwise_iff_getElem.1 (pairwise_runsFrom fields 0)
  obtain ⟨i, inside, rfl⟩ := List.getElem_of_mem here
  obtain ⟨j, inside', rfl⟩ := List.getElem_of_mem there
  rcases Nat.lt_trichotomy i j with before | rfl | after
  · exact Or.inr (Or.inl (apart i j inside inside' before))
  · exact Or.inl rfl
  · exact Or.inr (Or.inr (apart j i inside' inside after))

end VectorRun

namespace Schema

open VectorRun

variable {registry next last : Registry} {type : DataType} {fields : List (String × DataType)}

/-! ### Declared fields -/

/-- A declared field stands for as many fields as its width says. -/
theorem length_of_expand {record : String} {decl : FieldDecl}
    (expanded : expand registry record decl = .ok fields) : fields.length = decl.width := by
  obtain ⟨type, -, ⟨plain, rfl⟩ | ⟨count, vector, -, -, few, rfl⟩⟩ := expand_eq_ok_iff.1 expanded
  · rw [FieldDecl.width, plain]
    rfl
  · rw [length_declare few, FieldDecl.width, vector]
    rfl

/-- The fields of a record are as many as its declared fields stand for. -/
theorem length_flatten_of_expand {record : String} : ∀ {decls : List FieldDecl}
    {parts : List (List (String × DataType))}, decls.mapM (expand registry record) = .ok parts →
      parts.flatten.length = (decls.map FieldDecl.width).sum
  | [], _, expanded => by
    cases expanded
    rfl
  | decl :: rest, parts, expanded => by
    simp only [List.mapM_cons, bind_eq_ok, pure_eq_ok] at expanded
    obtain ⟨part, here, others, behind, rfl⟩ := expanded
    rw [List.flatten_cons, List.length_append, length_of_expand here,
      length_flatten_of_expand behind, List.map_cons, List.sum_cons]

/-! ### Declarations of a document -/

/-- What is known by a name stays known by it. -/
theorem find?_of_foldlM {name : String} {decls : List TypeDecl}
    (known : registry.find? name = some type) (later : decls.foldlM declare registry = .ok last) :
    last.find? name = some type := by
  refine foldlM_invariant (fun registry => registry.find? name = some type) ?_ known later
  intro before decl _ next held declared
  obtain ⟨other, -, registered⟩ := bind_eq_ok.1 declared
  rw [Registry.find?_register registered, held]
  rfl

/-- A declaration of a document describes a type of its registry, made from types that stay. -/
theorem exists_declared {schema : Schema} (accepted : schema.toRegistry = .ok last)
    {decl : TypeDecl} (mem : decl ∈ schema.types) :
    ∃ registry type, declaredType registry decl = .ok type ∧ last.find? type.name = some type ∧
      ∀ name part, registry.find? name = some part → last.find? name = some part := by
  obtain ⟨front, back, split⟩ := List.append_of_mem mem
  rw [toRegistry, split, List.foldlM_append, bind_eq_ok] at accepted
  obtain ⟨before, -, accepted⟩ := accepted
  rw [List.foldlM_cons, bind_eq_ok] at accepted
  obtain ⟨after, declared, later⟩ := accepted
  obtain ⟨type, described, registered⟩ := bind_eq_ok.1 declared
  have known : after.find? type.name = some type :=
    (Registry.knows_register_iff registered).2 (Or.inr rfl)
  refine ⟨before, type, described, find?_of_foldlM known later, ?_⟩
  intro name part held
  refine find?_of_foldlM ?_ later
  rw [Registry.find?_register registered, held]
  rfl

/-! ### Vectors -/

/-- The declared field stands for a vector of scalars: its type is a scalar kind, the record has a
field of this kind for each component from the given position on, and these fields are the front
part of one vector of the record that has the name of the field as its stem. -/
def IsVector (fields : List (String × DataType)) (decl : FieldDecl) (count start : Nat) : Prop :=
  ∃ kind : Scalar, decl.type = kind.name ∧
    (fields.drop start).take count = VectorRun.declare decl.name (.scalar kind) count ∧
    ∃ run ∈ ofFields fields, run.start = start ∧ run.stem = decl.name ∧ run.kind = kind ∧
      count ≤ run.length ∧ ∀ other ∈ ofFields fields, other ≠ run →
        other.start + other.length ≤ start ∨ start + count ≤ other.start

/-- Consecutive scalars with the names of components are the front part of one vector. -/
theorem isVector_of_scalar {decl : FieldDecl} {kind : Scalar} {count start : Nat}
    (named : decl.type = kind.name) (many : 2 ≤ count) (few : count ≤ 4)
    (here : (fields.drop start).take count = VectorRun.declare decl.name (.scalar kind) count) :
    IsVector fields decl count start := by
  have components : ∀ i < count, ∃ field, (fields.drop start)[i]? = some field ∧
      component? field = some (kind, ⟨decl.name, 0, i⟩) := by
    intro i inside
    obtain ⟨field, found, component⟩ := @component?_declare kind decl.name count i few inside
    rw [← here, List.getElem?_take_of_lt inside] at found
    exact ⟨field, found, component⟩
  have long := le_countFrom components
  have counts : Counts kind decl.name 0 0 (fields.drop start) _ := counts_countFrom _ 0
  have mem : ⟨decl.name, kind, start, _⟩ ∈ ofFields fields :=
    mem_ofFields_iff.2 (maximal_iff.2 ⟨many.trans long, 0, counts⟩)
  refine ⟨kind, named, here, _, mem, rfl, rfl, rfl, long, ?_⟩
  intro other mem' different
  rcases eq_or_apart mem' mem with same | before | after
  · exact absurd same different
  · exact Or.inl before
  · exact Or.inr ((Nat.add_le_add_left long start).trans after)

/-- What a document declares with components is a vector of scalars exactly if the type of the
components is no array.  Enums and records are refused, and in either case the components stand one
behind the other at the place of the declared field, from two to four of them. -/
theorem vector_iff_not_array {schema : Schema} {registry : Registry}
    (accepted : schema.toRegistry = .ok registry) {record : String}
    {decls front back : List FieldDecl} {decl : FieldDecl} {count : Nat}
    (declared : .record record decls ∈ schema.types)
    (split : decls = front ++ decl :: back) (vector : decl.components = some count) :
    ∃ type fields, registry.find? decl.type = some type ∧
      registry.find? record = some (.record record fields) ∧
      fields.length = (decls.map FieldDecl.width).sum ∧
      (type.scalar?.isSome = true ∨ type.isArray = true) ∧ 2 ≤ count ∧ count ≤ 4 ∧
      (fields.drop (front.map FieldDecl.width).sum).take count =
        VectorRun.declare decl.name type count ∧
      (IsVector fields decl count (front.map FieldDecl.width).sum ↔ type.isArray = false) := by
  obtain ⟨before, described, made, known, kept⟩ := exists_declared accepted declared
  simp only [declaredType, bind_eq_ok] at made
  obtain ⟨parts, each, built⟩ := made
  obtain ⟨rfl, -⟩ := DataType.ofFields_eq_ok_iff.1 built
  have length := length_flatten_of_expand each
  rw [split, List.mapM_append, bind_eq_ok] at each
  obtain ⟨frontParts, eachFront, each⟩ := each
  simp only [List.mapM_cons, bind_eq_ok, pure_eq_ok] at each
  obtain ⟨_, ⟨part, expanded, backParts, -, rfl⟩, rfl⟩ := each
  obtain ⟨type, found, ⟨plain, -⟩ | ⟨components, same, fine, many, few, rfl⟩⟩ :=
    expand_eq_ok_iff.1 expanded
  · rw [plain] at vector
    cases vector
  cases vector.symm.trans same
  have here : ((frontParts ++ VectorRun.declare decl.name type count :: backParts).flatten.drop
      (front.map FieldDecl.width).sum).take count = VectorRun.declare decl.name type count := by
    rw [← length_flatten_of_expand eachFront, List.flatten_append, List.flatten_cons,
      List.drop_left, List.take_left' (length_declare few)]
  refine ⟨type, _, kept _ _ found, known, length, ?_, many, few, here, ?_⟩
  · cases type with
    | scalar kind => exact Or.inl rfl
    | array name element => exact Or.inr rfl
    | enum enum => cases fine
    | record name fields => cases fine
  · cases type with
    | scalar kind =>
      have named : decl.type = kind.name := (Registry.name_of_find? found).symm
      exact iff_of_true (isVector_of_scalar named many few here) rfl
    | array name element =>
      refine iff_of_false ?_ (by simp [DataType.isArray, DataType.element?])
      rintro ⟨kind, -, same, -⟩
      rw [here] at same
      cases type_of_declare (by omega) same
    | enum enum => cases fine
    | record name fields => cases fine

/-- A document with bodies, which have a position and a color, and crowds of two groups of
bodies. -/
def bodySchema : Schema where
  types := [
    .record "Body" [⟨"index", "int32", none⟩, ⟨"position", "float32", some 3⟩,
      ⟨"color", "uint8", some 2⟩, ⟨"color_z", "uint8", none⟩],
    .array "Bodies" "Body",
    .record "Crowd" [⟨"frame", "int32", none⟩, ⟨"group", "Bodies", some 2⟩]]

/-- The fields of a body. -/
def bodyFields : List (String × DataType) :=
  [("index", .scalar .int32), ("position_x", .scalar .float32), ("position_y", .scalar .float32),
    ("position_z", .scalar .float32), ("color_x", .scalar .uint8), ("color_y", .scalar .uint8),
    ("color_z", .scalar .uint8)]

/-- The fields of a crowd. -/
def crowdFields : List (String × DataType) :=
  [("frame", .scalar .int32), ("group_x", .array "Bodies" (.record "Body" bodyFields)),
    ("group_y", .array "Bodies" (.record "Body" bodyFields))]

/-- The types of that document. -/
def bodyRegistry : Registry where
  types := [.record "Body" bodyFields, .array "Bodies" (.record "Body" bodyFields),
    .record "Crowd" crowdFields]

/-- The declared fields of a body in front of its color. -/
def bodyFront : List FieldDecl := [⟨"index", "int32", none⟩, ⟨"position", "float32", some 3⟩]

/-- The declared color of a body. -/
def bodyColor : FieldDecl := ⟨"color", "uint8", some 2⟩

/-- The color of a body is a vector, to which the scalar behind it belongs as well. -/
theorem vector_iff_not_array_body :
    bodySchema.toRegistry = .ok bodyRegistry ∧
      .record "Body" (bodyFront ++ bodyColor :: [⟨"color_z", "uint8", none⟩]) ∈ bodySchema.types ∧
      IsVector bodyFields bodyColor 2 4 ∧ ofFields bodyFields =
        [⟨"position", .float32, 1, 3⟩, ⟨"color", .uint8, 4, 3⟩] := by
  have accepted : bodySchema.toRegistry = .ok bodyRegistry := rfl
  have declared : .record "Body" (bodyFront ++ bodyColor :: [⟨"color_z", "uint8", none⟩]) ∈
      bodySchema.types := List.mem_cons_self
  obtain ⟨type, fields, found, known, -, -, -, -, -, vector⟩ :=
    vector_iff_not_array accepted declared rfl rfl
  cases found
  cases known
  exact ⟨accepted, declared, vector.2 rfl, by decide⟩

/-- The groups of a crowd are arrays, so although the document is accepted no vector is made of
them. -/
theorem not_isVector_crowd :
    bodySchema.toRegistry = .ok bodyRegistry ∧
      .record "Crowd" [⟨"frame", "int32", none⟩, ⟨"group", "Bodies", some 2⟩] ∈ bodySchema.types ∧
      bodyRegistry.find? "Crowd" = some (.record "Crowd" crowdFields) ∧
      ¬IsVector crowdFields ⟨"group", "Bodies", some 2⟩ 2 1 ∧ ofFields crowdFields = [] := by
  have notScalar : ∀ kind : Scalar, "Bodies" ≠ kind.name := by
    intro kind
    cases kind <;> decide
  refine ⟨rfl, by simp [bodySchema], rfl, ?_, by decide⟩
  rintro ⟨kind, named, -⟩
  exact notScalar kind named

end Schema

end DeviceBlob
