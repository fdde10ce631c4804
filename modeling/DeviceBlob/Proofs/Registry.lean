import DeviceBlob.Proofs.ToldApart
import DeviceBlob.Schema.Resolve

/-!
# Registries made from schema documents

A declaration may only use what stands before it, so what is declared is made of parts that the
registry knows.  A registry is `Closed` if this holds of all its types, and if they are types that
the constructors accept.  Registering one more type keeps this (`Closed.register`), and hence the
types of every document are closed (`closed_of_toRegistry`).
-/

namespace DeviceBlob

namespace Registry

variable {registry next : Registry} {type : DataType}

/-! ### Known types -/

/-- The registry knows the type under its name. -/
def Knows (registry : Registry) (type : DataType) : Prop :=
  registry.find? type.name = some type

/-- A type is found under its own name. -/
theorem name_of_find? {name : String} (found : registry.find? name = some type) :
    type.name = name := by
  unfold find? at found
  split at found
  · next kind named =>
    cases found
    exact Scalar.name_of_ofName? named
  · simpa using List.find?_some found

/-- A registry knows what is found in it. -/
theorem knows_of_find? {name : String} (found : registry.find? name = some type) :
    registry.Knows type := by
  rw [Knows, name_of_find? found]
  exact found

/-- Only scalars are known from the start. -/
theorem knows_empty_iff : empty.Knows type ↔ ∃ kind, type = .scalar kind := by
  constructor
  · intro known
    unfold Knows find? at known
    split at known
    · next kind _ =>
      cases known
      exact ⟨kind, rfl⟩
    · cases known
  · rintro ⟨kind, rfl⟩
    exact find?_scalar empty kind

/-! ### Registering one more type -/

/-- After a registration the new type is found under its name, and other types as before. -/
theorem find?_register (registered : registry.register type = .ok next) (name : String) :
    next.find? name =
      (registry.find? name).or (if type.name = name then some type else none) := by
  unfold register at registered
  split at registered
  · cases registered
  · cases registered
    unfold find?
    cases Scalar.ofName? name with
    | some kind => rfl
    | none =>
      rw [List.find?_append, List.find?_singleton]
      simp only [decide_eq_true_eq]

/-- A type is registered only if there is none of its name. -/
theorem find?_eq_none_of_register (registered : registry.register type = .ok next) :
    registry.find? type.name = none := by
  unfold register at registered
  split at registered
  · cases registered
  · next unknown => simpa using unknown

/-- After a registration a registry knows the new type and what it knew before. -/
theorem knows_register_iff (registered : registry.register type = .ok next) {other : DataType} :
    next.Knows other ↔ registry.Knows other ∨ other = type := by
  have new := find?_eq_none_of_register registered
  rw [Knows, find?_register registered, Knows]
  constructor
  · intro found
    cases old : registry.find? other.name with
    | some held =>
      rw [old, Option.some_or] at found
      exact Or.inl found
    | none =>
      rw [old, Option.none_or] at found
      split at found
      · exact Or.inr (Option.some.inj found).symm
      · cases found
  · rintro (known | rfl)
    · rw [known, Option.some_or]
    · rw [new, Option.none_or, if_pos rfl]

/-! ### Closed registries -/

/-- The known types are buildable, and their parts are known. -/
def Closed (registry : Registry) : Prop :=
  ∀ type, registry.Knows type → type.Buildable ∧ ∀ part ∈ type.parts, registry.Knows part

/-- The types of a closed registry have different names. -/
theorem Closed.toldApart (closed : registry.Closed) : ToldApart registry.Knows where
  buildable := fun type known => (closed type known).1
  parts := fun type known => (closed type known).2
  unique := fun _ _ known also named _ => Option.some.inj (known.symm.trans (named ▸ also))

/-- The empty registry is closed. -/
theorem closed_empty : empty.Closed := by
  intro type known
  obtain ⟨kind, rfl⟩ := knows_empty_iff.1 known
  exact ⟨.scalar kind, fun part mem => absurd mem List.not_mem_nil⟩

/-- A type that is made of known parts may be added. -/
theorem Closed.register (closed : registry.Closed) (buildable : type.Buildable)
    (parts : ∀ part ∈ type.parts, registry.Knows part)
    (registered : registry.register type = .ok next) : next.Closed := by
  have kept : ∀ part, registry.Knows part → next.Knows part :=
    fun part known => (knows_register_iff registered).2 (Or.inl known)
  intro other known
  rcases (knows_register_iff registered).1 known with old | rfl
  · obtain ⟨fine, below⟩ := closed other old
    exact ⟨fine, fun part mem => kept part (below part mem)⟩
  · exact ⟨buildable, fun part mem => kept part (parts part mem)⟩

end Registry

namespace Schema

variable {registry : Registry} {type : DataType} {fields : List (String × DataType)}

/-- A look-up succeeds exactly if the name is found. -/
theorem lookUp_eq_ok_iff {name : String} :
    lookUp registry name = .ok type ↔ registry.find? name = some type := by
  unfold lookUp
  cases registry.find? name <;> simp

/-- What fields a declared field stands for. -/
theorem expand_eq_ok_iff {record : String} {decl : FieldDecl} :
    expand registry record decl = .ok fields ↔ ∃ type, registry.find? decl.type = some type ∧
      ((decl.components = none ∧ fields = [(decl.name, type)]) ∨
        ∃ count, decl.components = some count ∧ isEnumOrRecord type = false ∧ 2 ≤ count ∧
          count ≤ 4 ∧ fields = VectorRun.declare decl.name type count) := by
  rw [expand, bind_eq_ok]
  refine exists_congr fun type => ?_
  rw [lookUp_eq_ok_iff]
  refine and_congr_right fun _ => ?_
  cases decl.components with
  | none =>
    rw [pure_eq_ok]
    constructor
    · rintro rfl
      exact Or.inl ⟨rfl, rfl⟩
    · rintro (⟨-, rfl⟩ | ⟨_, none, -⟩)
      · rfl
      · cases none
  | some count =>
    simp only [reduceCtorEq, false_and, false_or, Option.some.injEq, exists_eq_left']
    by_cases refused : isEnumOrRecord type = true
    · rw [if_pos refused]
      simp [refused, throw, throwThe, MonadExceptOf.throw, bind, Except.bind]
    · rw [if_neg refused]
      by_cases wrong : count < 2 ∨ 4 < count
      · rw [if_pos wrong]
        simp only [throw, throwThe, MonadExceptOf.throw, bind, Except.bind, reduceCtorEq, false_iff]
        omega
      · rw [if_neg wrong, pure_eq_ok, and_iff_right (Bool.eq_false_iff.2 refused),
          and_iff_right (by omega), and_iff_right (by omega), eq_comm]

/-- The fields that a declared field stands for have known types. -/
theorem knows_of_expand {record : String} {decl : FieldDecl}
    (expanded : expand registry record decl = .ok fields) :
    ∀ field ∈ fields, registry.Knows field.2 := by
  obtain ⟨type, found, ⟨-, rfl⟩ | ⟨count, -, -, -, -, rfl⟩⟩ := expand_eq_ok_iff.1 expanded
  · intro field mem
    rw [List.mem_singleton.1 mem]
    exact Registry.knows_of_find? found
  · intro field mem
    obtain ⟨component, -, rfl⟩ := List.mem_map.1 mem
    exact Registry.knows_of_find? found

/-- A declaration describes a type that is made of known parts. -/
theorem parts_of_declaredType (closed : registry.Closed) {decl : TypeDecl}
    (declared : declaredType registry decl = .ok type) :
    type.Buildable ∧ ∀ part ∈ type.parts, registry.Knows part := by
  cases decl with
  | enum name labels =>
    simp only [declaredType, bind_eq_ok, pure_eq_ok] at declared
    obtain ⟨_, -, enum, -, rfl⟩ := declared
    exact ⟨.enum enum, fun part mem => absurd mem List.not_mem_nil⟩
  | record name decls =>
    simp only [declaredType, bind_eq_ok] at declared
    obtain ⟨expanded, each, built⟩ := declared
    have known : ∀ field ∈ expanded.flatten, registry.Knows field.2 := by
      intro field mem
      obtain ⟨fields, among, mem⟩ := List.mem_flatten.1 mem
      obtain ⟨decl, -, here⟩ := exists_of_mem_results each among
      exact knows_of_expand here field mem
    refine ⟨.record (fun field mem => (closed _ (known field mem)).1) built, ?_⟩
    obtain ⟨rfl, -⟩ := DataType.ofFields_eq_ok_iff.1 built
    intro part mem
    obtain ⟨field, among, rfl⟩ := List.mem_map.1 mem
    exact known field among
  | array name element =>
    simp only [declaredType, bind_eq_ok] at declared
    obtain ⟨content, found, built⟩ := declared
    have known := Registry.knows_of_find? (lookUp_eq_ok_iff.1 found)
    refine ⟨.array (closed _ known).1 built, ?_⟩
    obtain ⟨rfl, -⟩ := DataType.ofElement_eq_ok_iff.1 built
    exact fun part mem => List.mem_singleton.1 mem ▸ known

/-- The types of a document are made of parts that are types of the document or scalars. -/
theorem closed_of_toRegistry {schema : Schema} (resolved : schema.toRegistry = .ok registry) :
    registry.Closed := by
  refine foldlM_invariant Registry.Closed ?_ Registry.closed_empty resolved
  intro before decl _ next closed declared
  obtain ⟨type, described, registered⟩ := bind_eq_ok.1 declared
  obtain ⟨buildable, parts⟩ := parts_of_declaredType closed described
  exact closed.register buildable parts registered

end Schema

end DeviceBlob
