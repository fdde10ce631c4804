import DeviceBlob.Proofs.Code.TypeCode
import DeviceBlob.Proofs.Code.Unit

/-!
# What a visit generates

A generator goes down into the parts of a type, leaves out what it has done before, and stops at the
first type that it can make no code for.  Its work is `Traced` by the list of the types that it is
done with: the unit holds the texts of their codes, each text once, and the parts of each type come
before it.

A visit adds to that list.  Which types are on it afterwards depends on the type that is visited
alone (`Generates`, `Reaches`), since what is left out was completed before with all of its parts
(`emits_visit`).
-/

namespace DeviceBlob.Code

/-- The mark of a type that is done. -/
def Visit.of (space : AddressSpace) (type : DataType) : Visit :=
  ⟨type.name, type.fingerprint, space⟩

/-- A type that is done, with its code. -/
structure Emission where
  /-- The address space. -/
  space : AddressSpace
  /-- The type. -/
  type : DataType
  /-- What was generated for it. -/
  code : TypeCode

/-- The type is on the list for the space. -/
def Has (done : List Emission) (space : AddressSpace) (type : DataType) : Prop :=
  ∃ emission ∈ done, emission.space = space ∧ emission.type = type

section Has

variable {done more : List Emission} {space other : AddressSpace} {type part : DataType}
  {code : TypeCode}

/-- At the start there is no code. -/
theorem not_has_nil : ¬Has [] space type := by
  rintro ⟨emission, mem, -⟩
  exact absurd mem List.not_mem_nil

/-- There is code for a type if it was there or came later. -/
theorem has_append : Has (done ++ more) space type ↔ Has done space type ∨ Has more space type := by
  simp only [Has, List.mem_append, or_and_right, exists_or]

/-- One piece of code is for one type. -/
theorem has_singleton : Has [⟨other, part, code⟩] space type ↔ space = other ∧ type = part := by
  simp only [Has, List.mem_singleton, exists_eq_left, eq_comm]

end Has

/-- A visit belongs to one type and one space. -/
theorem eq_of_visit {among : DataType → Prop} (told : ToldApart among) {type other : DataType}
    {space elsewhere : AddressSpace} (here : among type) (there : among other)
    (same : Visit.of space type = Visit.of elsewhere other) : space = elsewhere ∧ type = other := by
  obtain ⟨named, marked, placed⟩ := Visit.mk.inj same
  exact ⟨placed, told.unique type other here there named marked⟩

section Trace

variable (among : DataType → Prop) (config : Config) (compiler : Compiler)

/-- What is on the list behind the given front. -/
structure Follows (front : List Emission) (emission : Emission) : Prop where
  /-- It is one of the types. -/
  member : among emission.type
  /-- It comes with its code. -/
  made : codeOf config compiler emission.space emission.type = some emission.code
  /-- Its parts come before it. -/
  parts : ∀ part ∈ emission.type.parts, part.scalar? = none → Has front emission.space part

/-- The list says what the generator has done. -/
structure Traced (done : List Emission) (generator : Generator) : Prop where
  /-- The choices of the user stay. -/
  config_eq : generator.config = config
  /-- Layouts are made in one way. -/
  compiler_eq : generator.compiler = compiler
  /-- What is on the list is marked as done. -/
  visited_iff : ∀ visit, visit ∈ generator.visited ↔
    ∃ emission ∈ done, Visit.of emission.space emission.type = visit
  /-- The declarations are those on the list. -/
  declarations_eq : generator.unit.declarations =
    CodeUnit.distinct Declaration.text (done.map (·.code.declaration))
  /-- The prototypes are those on the list. -/
  prototypes_eq : generator.unit.prototypes =
    CodeUnit.distinct Function.prototype (done.flatMap (·.code.functions))
  /-- The definitions are those on the list. -/
  bodies_eq : generator.unit.bodies =
    CodeUnit.distinct Function.definition (done.flatMap (·.code.functions))
  /-- Parts come before the types that are made of them. -/
  follows : ∀ front emission back, done = front ++ emission :: back →
    Follows among config compiler front emission

mutual

/-- A visit of the type succeeds. -/
def Generates (space : AddressSpace) : DataType → Prop
  | .scalar _ => True
  | .enum _ => True
  | .record name fields => FieldsGenerate space fields ∧
    (codeOf config compiler space (.record name fields)).isSome = true
  | .array _ element => Generates space element

/-- Visits of the fields' types succeed. -/
def FieldsGenerate (space : AddressSpace) : List (String × DataType) → Prop
  | [] => True
  | (_, type) :: rest => Generates space type ∧ FieldsGenerate space rest

end

mutual

/-- The other type is done after a visit of the type. -/
def Reaches (space : AddressSpace) (other : DataType) : DataType → Prop
  | .scalar _ => False
  | .enum enum => other = .enum enum
  | .record name fields => FieldsReach space other fields ∨
    Generates config compiler space (.record name fields) ∧ other = .record name fields
  | .array name element => Reaches space other element ∨
    Generates config compiler space element ∧ other = .array name element

/-- The other type is done after visits of the fields' types, up to the first that fails. -/
def FieldsReach (space : AddressSpace) (other : DataType) : List (String × DataType) → Prop
  | [] => False
  | (_, type) :: rest => Reaches space other type ∨
    Generates config compiler space type ∧ FieldsReach space other rest

end

/-- Whatever was done before, the step adds the types that the predicate describes, and it succeeds
exactly under the condition. -/
def Emits (space : AddressSpace) (step : Generator.Step Unit) (succeeds : Prop)
    (reaches : DataType → Prop) : Prop :=
  ∀ done generator, Traced among config compiler done generator →
    ∃ more outcome next, step.run.run generator = (outcome, next) ∧
      Traced among config compiler (done ++ more) next ∧ (outcome = .ok () ↔ succeeds) ∧
      ∀ other type, Has (done ++ more) other type ↔ Has done other type ∨
        other = space ∧ reaches type

end Trace

variable {among : DataType → Prop} {config : Config} {compiler : Compiler} {space : AddressSpace}
  {type part : DataType} {done more : List Emission} {generator next : Generator}

/-! ### The list of what is done -/

/-- At the start nothing has been emitted. -/
theorem traced_start : Traced among config compiler [] (.start config compiler) where
  config_eq := rfl
  compiler_eq := rfl
  visited_iff visit := by simp [Generator.start]
  declarations_eq := rfl
  prototypes_eq := rfl
  bodies_eq := rfl
  follows front emission back split := by simp at split

namespace Traced

/-- Registering layouts changes nothing that is traced. -/
theorem layouts (traced : Traced among config compiler done generator)
    (layouts : List (String × Layout)) : Traced among config compiler done
      { generator with unit := { generator.unit with layouts := layouts } } where
  config_eq := traced.config_eq
  compiler_eq := traced.compiler_eq
  visited_iff := traced.visited_iff
  declarations_eq := traced.declarations_eq
  prototypes_eq := traced.prototypes_eq
  bodies_eq := traced.bodies_eq
  follows := traced.follows

/-- One more type is done, all parts of which are done already. -/
theorem finish (traced : Traced among config compiler done generator) {emission : Emission}
    (follows : Follows among config compiler done emission) :
    Traced among config compiler (done ++ [emission])
      (generator.finish (Visit.of emission.space emission.type) emission.code) where
  config_eq := traced.config_eq
  compiler_eq := traced.compiler_eq
  visited_iff visit := by
    simp only [Generator.finish, List.mem_cons, traced.visited_iff, List.mem_append,
      List.not_mem_nil, or_false, or_and_right, exists_or, exists_eq_left]
    rw [or_comm, eq_comm]
  declarations_eq := by
    rw [List.map_append, List.map_singleton, CodeUnit.distinct_concat, ← traced.declarations_eq]
    exact congrArg CodeUnit.declarations (CodeUnit.add_eq _ _)
  prototypes_eq := by
    rw [List.flatMap_append, List.flatMap_singleton, CodeUnit.distinct_append,
      ← traced.prototypes_eq]
    exact congrArg CodeUnit.prototypes (CodeUnit.add_eq _ _)
  bodies_eq := by
    rw [List.flatMap_append, List.flatMap_singleton, CodeUnit.distinct_append, ← traced.bodies_eq]
    exact congrArg CodeUnit.bodies (CodeUnit.add_eq _ _)
  follows front other back split := by
    rcases List.eq_nil_or_concat' back with rfl | ⟨back, last, rfl⟩
    · obtain ⟨rfl, same⟩ := List.append_inj' split rfl
      cases same
      exact follows
    · have longer : done ++ [emission] = (front ++ other :: back) ++ [last] := by
        rw [split, List.append_assoc, List.cons_append]
      exact traced.follows front other back (List.append_inj' longer rfl).1

/-- What is on the list follows what is in front of it. -/
theorem exists_follows (traced : Traced among config compiler done generator)
    (has : Has done space type) : ∃ front code back,
      done = front ++ ⟨space, type, code⟩ :: back ∧
        Follows among config compiler front ⟨space, type, code⟩ := by
  obtain ⟨⟨_, _, code⟩, mem, rfl, rfl⟩ := has
  obtain ⟨front, back, split⟩ := List.append_of_mem mem
  exact ⟨front, code, back, split, traced.follows front _ back split⟩

/-- What has been emitted is among the known types. -/
theorem member (traced : Traced among config compiler done generator)
    (has : Has done space type) : among type := by
  obtain ⟨front, code, back, -, follows⟩ := traced.exists_follows has
  exact follows.member

/-- What has been emitted has code. -/
theorem isSome (traced : Traced among config compiler done generator)
    (has : Has done space type) : (codeOf config compiler space type).isSome = true := by
  obtain ⟨front, code, back, -, follows⟩ := traced.exists_follows has
  rw [follows.made]
  rfl

/-- The parts of what has been emitted have been emitted. -/
theorem has_part (traced : Traced among config compiler done generator)
    (has : Has done space type) (mem : part ∈ type.parts) (made : part.scalar? = none) :
    Has done space part := by
  obtain ⟨front, code, back, rfl, follows⟩ := traced.exists_follows has
  exact has_append.2 (Or.inl (follows.parts part mem made))

/-- A declaration in the unit is that of a type on the list. -/
theorem exists_of_mem_declarations (traced : Traced among config compiler done generator)
    {declaration : Declaration} (mem : declaration ∈ generator.unit.declarations) :
    ∃ space type code, Has done space type ∧ codeOf config compiler space type = some code ∧
      declaration = code.declaration := by
  rw [traced.declarations_eq] at mem
  obtain ⟨emission, here, rfl⟩ := List.mem_map.1 (CodeUnit.mem_of_mem_distinct mem)
  obtain ⟨front, back, split⟩ := List.append_of_mem here
  exact ⟨_, _, _, ⟨emission, here, rfl, rfl⟩, (traced.follows front emission back split).made, rfl⟩

/-- A function in the unit is one of a type on the list. -/
theorem exists_of_mem_bodies (traced : Traced among config compiler done generator)
    {f : Function} (mem : f ∈ generator.unit.bodies) :
    ∃ space type code, Has done space type ∧ codeOf config compiler space type = some code ∧
      f ∈ code.functions := by
  rw [traced.bodies_eq] at mem
  obtain ⟨emission, here, mem⟩ := List.mem_flatMap.1 (CodeUnit.mem_of_mem_distinct mem)
  obtain ⟨front, back, split⟩ := List.append_of_mem here
  exact ⟨_, _, _, ⟨emission, here, rfl, rfl⟩, (traced.follows front emission back split).made, mem⟩

/-- The marks of a generator tell what is on the list. -/
theorem mem_visited_iff (told : ToldApart among)
    (traced : Traced among config compiler done generator) (here : among type) :
    Visit.of space type ∈ generator.visited ↔ Has done space type := by
  rw [traced.visited_iff]
  constructor
  · rintro ⟨emission, mem, same⟩
    have there := traced.member ⟨emission, mem, rfl, rfl⟩
    obtain ⟨placed, rfl⟩ := eq_of_visit told there here same
    exact ⟨emission, mem, placed, rfl⟩
  · rintro ⟨emission, mem, rfl, rfl⟩
    exact ⟨emission, mem, rfl⟩

end Traced

/-! ### Types that are done -/

mutual

/-- A type that is done can be visited, and a visit would bring nothing new. -/
theorem complete (traced : Traced among config compiler done generator) :
    ∀ {type : DataType}, (type.scalar? = none → Has done space type) →
      Generates config compiler space type ∧
        ∀ other, Reaches config compiler space other type → Has done space other
  | .scalar _, _ => ⟨trivial, fun _ reached => reached.elim⟩
  | .enum enum, has => ⟨trivial, fun _ reached => reached ▸ has rfl⟩
  | .record name fields, has => by
    have here := has rfl
    obtain ⟨fine, below⟩ := fieldsComplete traced fun field mem made =>
      traced.has_part here (List.mem_map_of_mem mem) made
    refine ⟨⟨fine, traced.isSome here⟩, ?_⟩
    rintro other (reached | ⟨-, rfl⟩)
    · exact below other reached
    · exact here
  | .array name element, has => by
    have here := has rfl
    obtain ⟨fine, below⟩ := complete traced (traced.has_part here List.mem_cons_self)
    refine ⟨fine, ?_⟩
    rintro other (reached | ⟨-, rfl⟩)
    · exact below other reached
    · exact here

/-- So is a record whose fields have been emitted. -/
theorem fieldsComplete (traced : Traced among config compiler done generator) :
    ∀ {fields : List (String × DataType)},
      (∀ field ∈ fields, field.2.scalar? = none → Has done space field.2) →
        FieldsGenerate config compiler space fields ∧
          ∀ other, FieldsReach config compiler space other fields → Has done space other
  | [], _ => ⟨trivial, fun _ reached => reached.elim⟩
  | (name, type) :: rest, has => by
    obtain ⟨here, behind⟩ := List.forall_mem_cons.1 has
    obtain ⟨fine, below⟩ := complete traced here
    obtain ⟨others, beside⟩ := fieldsComplete traced behind
    refine ⟨⟨fine, others⟩, ?_⟩
    rintro other (reached | ⟨-, reached⟩)
    · exact below other reached
    · exact beside other reached

end

/-- A visit that succeeds has done the type itself. -/
theorem reaches_self (made : type.scalar? = none) (fine : Generates config compiler space type) :
    Reaches config compiler space type type := by
  cases type with
  | scalar kind => cases made
  | enum enum => rfl
  | record name fields => exact Or.inr ⟨fine, rfl⟩
  | array name element => exact Or.inr ⟨fine, rfl⟩

/-- Fields reach the types of each of them. -/
theorem fieldsReach_of_mem {field : String × DataType} (made : field.2.scalar? = none) :
    ∀ {fields : List (String × DataType)}, field ∈ fields →
      FieldsGenerate config compiler space fields →
        FieldsReach config compiler space field.2 fields
  | (name, type) :: rest, mem, ⟨here, behind⟩ => by
    rcases List.mem_cons.1 mem with rfl | mem
    · exact Or.inl (reaches_self made here)
    · exact Or.inr ⟨here, fieldsReach_of_mem made mem behind⟩

/-! ### Steps -/

namespace Emits

/-- What a step emits can be said in another way. -/
theorem congr {step : Generator.Step Unit} {one two : Prop} {reached reaches : DataType → Prop}
    (emits : Emits among config compiler space step one reached) (fine : one ↔ two)
    (same : ∀ other, reached other ↔ reaches other) :
    Emits among config compiler space step two reaches := by
  intro done generator traced
  obtain ⟨more, outcome, next, run, kept, good, has⟩ := emits done generator traced
  refine ⟨more, outcome, next, run, kept, good.trans fine, fun elsewhere other => ?_⟩
  rw [has, same]

/-- A step that fails, or has nothing to do, and leaves the generator as it is. -/
theorem skip {step : Generator.Step Unit} {succeeds : Prop}
    (run : ∀ generator : Generator, generator.config = config → generator.compiler = compiler →
      ∃ outcome, step.run.run generator = (outcome, generator) ∧
        (outcome = .ok () ↔ succeeds)) :
    Emits among config compiler space step succeeds fun _ => False := by
  intro done generator traced
  obtain ⟨outcome, kept, fine⟩ := run generator traced.config_eq traced.compiler_eq
  refine ⟨[], outcome, generator, kept, ?_, fine, fun elsewhere other => ?_⟩
  · rw [List.append_nil]
    exact traced
  · rw [List.append_nil, and_false, or_false]

/-- The second of two steps is taken if the first succeeds. -/
theorem seq {first second : Generator.Step Unit} {one two : Prop}
    {reached reaches : DataType → Prop}
    (here : Emits among config compiler space first one reached)
    (there : Emits among config compiler space second two reaches) :
    Emits among config compiler space (first >>= fun _ => second) (one ∧ two)
      fun type => reached type ∨ one ∧ reaches type := by
  intro done generator traced
  obtain ⟨more, outcome, between, run, kept, fine, has⟩ := here done generator traced
  cases outcome with
  | error e =>
    have failed : ¬one := fun holds => nomatch fine.2 holds
    refine ⟨more, .error e, between, run_bind_of_error run, kept, ?_, fun other type => ?_⟩
    · simp [failed]
    · simp [has, failed]
  | ok _ =>
    have holds : one := fine.1 rfl
    obtain ⟨others, outcome, next, later, last, good, gets⟩ := there _ between kept
    refine ⟨more ++ others, outcome, next, ?_, ?_, ?_, fun other type => ?_⟩
    · rw [run_bind_of_ok run, later]
    · rw [← List.append_assoc]
      exact last
    · simp [good, holds]
    · rw [← List.append_assoc, gets, has, or_assoc, ← and_or_left]
      simp [holds]

/-- The type is marked as done when its parts are. -/
theorem finish {parts step : Generator.Step Unit} {fine : Prop} {reached : DataType → Prop}
    {code : TypeCode} (below : Emits among config compiler space parts fine reached)
    (here : among type) (made : codeOf config compiler space type = some code)
    (each : fine → ∀ part ∈ type.parts, part.scalar? = none → reached part)
    (last : ∀ generator : Generator, generator.config = config → generator.compiler = compiler →
      ∃ layouts, step.run.run generator = (.ok (), Generator.finish
        { generator with unit := { generator.unit with layouts := layouts } }
        (Visit.of space type) code)) :
    Emits among config compiler space (parts >>= fun _ => step) fine
      fun other => reached other ∨ fine ∧ other = type := by
  intro done generator traced
  obtain ⟨more, outcome, between, run, kept, good, has⟩ := below done generator traced
  cases outcome with
  | error e =>
    have failed : ¬fine := fun holds => nomatch good.2 holds
    refine ⟨more, .error e, between, run_bind_of_error run, kept, good, fun elsewhere other => ?_⟩
    simp [has, failed]
  | ok _ =>
    have holds : fine := good.1 rfl
    obtain ⟨layouts, later⟩ := last between kept.config_eq kept.compiler_eq
    have follows : Follows among config compiler (done ++ more) ⟨space, type, code⟩ :=
      ⟨here, made, fun part mem scalar =>
        (has space part).2 (Or.inr ⟨rfl, each holds part mem scalar⟩)⟩
    refine ⟨more ++ [⟨space, type, code⟩], .ok (), _, (run_bind_of_ok run).trans later, ?_, ?_,
      fun elsewhere other => ?_⟩
    · rw [← List.append_assoc]
      exact (kept.layouts layouts).finish follows
    · simp [holds]
    · rw [← List.append_assoc, has_append, has, has_singleton, or_assoc, ← and_or_left]
      simp [holds]

end Emits

/-! ### Visits -/

/-- What a visit does if the type is not done yet. -/
def make (space : AddressSpace) : DataType → Generator.Step Unit
  | .scalar _ => pure ()
  | .enum enum => modify fun generator =>
    generator.finish (Visit.of space (.enum enum)) (ofEnum (generator.names space) enum)
  | .record name fields => do
    Generator.visitFields space fields
    let code ← Generator.recordCode space (.record name fields)
    modify (·.finish (Visit.of space (.record name fields)) code)
  | .array name element => do
    liftExcept (DataType.checkElement name element)
    Generator.visit space element
    modify fun generator => generator.finish (Visit.of space (.array name element))
      (ofArray (generator.names space) (.array name element) element)

/-- A visit leaves out what is marked as done. -/
theorem run_visit (space : AddressSpace) (type : DataType) (generator : Generator) :
    (Generator.visit space type).run.run generator =
      if Visit.of space type ∈ generator.visited then (.ok (), generator)
      else (make space type).run.run generator := by
  have step : (Generator.visit space type).run.run generator =
      (if generator.visited.contains (Visit.of space type) = true then pure ()
        else make space type : Generator.Step Unit).run.run generator := by
    cases type with
    | _ =>
      rw [Generator.visit]
      rfl
  rw [step]
  by_cases known : Visit.of space type ∈ generator.visited
  · rw [if_pos (by simpa using known), if_pos known]
    rfl
  · rw [if_neg (by simpa using known), if_neg known]

/-- If the work on a type that is not done is known, so is that of a visit. -/
theorem emits_visit_of_make (told : ToldApart among) (here : among type)
    (emits : Emits among config compiler space (make space type)
      (Generates config compiler space type) (Reaches config compiler space · type)) :
    Emits among config compiler space (Generator.visit space type)
      (Generates config compiler space type) (Reaches config compiler space · type) := by
  intro done generator traced
  rw [run_visit]
  by_cases known : Visit.of space type ∈ generator.visited
  · rw [if_pos known]
    obtain ⟨fine, below⟩ :=
      complete traced fun _ => (traced.mem_visited_iff told here).1 known
    refine ⟨[], .ok (), generator, rfl, ?_, by simp [fine], fun elsewhere other => ?_⟩
    · rw [List.append_nil]
      exact traced
    · rw [List.append_nil, eq_comm, or_iff_left_of_imp]
      rintro ⟨rfl, reached⟩
      exact below other reached
  · rw [if_neg known]
    exact emits done generator traced

/-- An enum emits its own code. -/
theorem emits_make_enum {enum : EnumType} (here : among (.enum enum)) :
    Emits among config compiler space (make space (.enum enum))
      (Generates config compiler space (.enum enum))
      (Reaches config compiler space · (.enum enum)) := by
  have nothing : Emits among config compiler space (pure ()) True fun _ => False :=
    .skip fun _ _ _ => ⟨.ok (), rfl, iff_of_true rfl trivial⟩
  have last : ∀ generator : Generator, generator.config = config → generator.compiler = compiler →
      ∃ layouts, (make space (.enum enum)).run.run generator = (.ok (), Generator.finish
        { generator with unit := { generator.unit with layouts := layouts } }
        (Visit.of space (.enum enum)) (ofEnum (config.names space) enum)) := by
    rintro generator rfl -
    exact ⟨generator.unit.layouts, rfl⟩
  have emits := nothing.finish here rfl (fun _ part mem => absurd mem List.not_mem_nil) last
  exact emits.congr Iff.rfl fun other => by simp [Reaches]

/-- A record emits what its fields do and then its own code. -/
theorem emits_make_record {name : String} {fields : List (String × DataType)}
    (here : among (.record name fields))
    (below : Emits among config compiler space (Generator.visitFields space fields)
      (FieldsGenerate config compiler space fields)
      (FieldsReach config compiler space · fields)) :
    Emits among config compiler space (make space (.record name fields))
      (Generates config compiler space (.record name fields))
      (Reaches config compiler space · (.record name fields)) := by
  cases made : codeOf config compiler space (.record name fields) with
  | none =>
    have fails : Emits among config compiler space (do
        let code ← Generator.recordCode space (.record name fields)
        modify (·.finish (Visit.of space (.record name fields)) code)) False fun _ => False := by
      refine .skip ?_
      rintro generator rfl rfl
      obtain ⟨e, run⟩ := run_recordCode_of_none made
      exact ⟨.error e, run_bind_of_error run, by simp⟩
    refine (below.seq fails).congr ?_ fun other => ?_
    · simp [Generates, made]
    · simp [Reaches, Generates, made]
  | some code =>
    have last : ∀ generator : Generator, generator.config = config →
        generator.compiler = compiler → ∃ layouts, (do
          let code ← Generator.recordCode space (.record name fields)
          modify (·.finish (Visit.of space (.record name fields)) code) :
            Generator.Step Unit).run.run generator = (.ok (), Generator.finish
          { generator with unit := { generator.unit with layouts := layouts } }
          (Visit.of space (.record name fields)) code) := by
      rintro generator rfl rfl
      obtain ⟨layouts, run⟩ := run_recordCode made
      exact ⟨layouts, run_bind_of_ok run⟩
    have each : FieldsGenerate config compiler space fields →
        ∀ part ∈ (DataType.record name fields).parts, part.scalar? = none →
          FieldsReach config compiler space part fields := by
      intro fine part mem scalar
      obtain ⟨field, among, rfl⟩ := List.mem_map.1 mem
      exact fieldsReach_of_mem scalar among fine
    refine (below.finish here made each last).congr ?_ fun other => ?_
    · simp [Generates, made]
    · simp [Reaches, Generates, made]

/-- An array emits what its elements do and then its own code. -/
theorem emits_make_array {name : String} {element : DataType}
    (starts : element.startsWithIndex = true) (here : among (.array name element))
    (below : Emits among config compiler space (Generator.visit space element)
      (Generates config compiler space element) (Reaches config compiler space · element)) :
    Emits among config compiler space (make space (.array name element))
      (Generates config compiler space (.array name element))
      (Reaches config compiler space · (.array name element)) := by
  have last : ∀ generator : Generator, generator.config = config → generator.compiler = compiler →
      ∃ layouts, (modify fun generator => generator.finish (Visit.of space (.array name element))
        (ofArray (generator.names space) (.array name element) element) :
          Generator.Step Unit).run.run generator = (.ok (), Generator.finish
        { generator with unit := { generator.unit with layouts := layouts } }
        (Visit.of space (.array name element))
        (ofArray (config.names space) (.array name element) element)) := by
    rintro generator rfl -
    exact ⟨generator.unit.layouts, rfl⟩
  have each : Generates config compiler space element →
      ∀ part ∈ (DataType.array name element).parts, part.scalar? = none →
        Reaches config compiler space part element := by
    intro fine part mem scalar
    cases List.mem_singleton.1 mem
    exact reaches_self scalar fine
  have emits := below.finish here rfl each last
  rw [make, DataType.checkElement, if_pos starts]
  exact emits

mutual

/-- **A visit** adds the types that it reaches, whatever was done before. -/
theorem emits_visit (told : ToldApart among) : ∀ {type : DataType}, among type →
    Emits among config compiler space (Generator.visit space type)
      (Generates config compiler space type) (Reaches config compiler space · type)
  | .scalar _, here =>
    emits_visit_of_make told here (.skip fun _ _ _ => ⟨.ok (), rfl, iff_of_true rfl trivial⟩)
  | .enum _, here => emits_visit_of_make told here (emits_make_enum here)
  | .record _ _, here =>
    emits_visit_of_make told here (emits_make_record here (emits_visitFields told
      fun _ mem => told.parts _ here _ (List.mem_map_of_mem mem)))
  | .array _ element, here =>
    emits_visit_of_make told here (emits_make_array (told.buildable _ here).startsWithIndex here
      (emits_visit told (told.parts _ here element List.mem_cons_self)))

/-- So it is for consecutive fields. -/
theorem emits_visitFields (told : ToldApart among) : ∀ {fields : List (String × DataType)},
    (∀ field ∈ fields, among field.2) →
      Emits among config compiler space (Generator.visitFields space fields)
        (FieldsGenerate config compiler space fields)
        (FieldsReach config compiler space · fields)
  | [], _ => .skip fun _ _ _ => ⟨.ok (), rfl, iff_of_true rfl trivial⟩
  | (name, type) :: rest, each => by
    obtain ⟨here, behind⟩ := List.forall_mem_cons.1 each
    rw [Generator.visitFields]
    exact (emits_visit told here).seq (emits_visitFields told behind)

end

end DeviceBlob.Code
