import DeviceBlob.Proofs.Code.Visit

/-!
# Requests to a generator

A generator is asked for types and for lists, one after the other, and some requests may fail.  What
it has done in the end are the types that the requests reach (`exists_traced`), whatever their order
is and however often they are repeated.  So two sequences of the same requests give units with the
same texts (`sameTexts_of_same_requests`).

A generator marks what is done by name and fingerprint.  The names in a registry differ, but the
head of lists is no type of the registry: a type of its name may have its fingerprint by accident,
and then whichever comes first is generated.  `HeadApart` excludes this.
-/

namespace DeviceBlob.Code

/-- What a generator is asked for. -/
inductive Request where
  /-- The code of a type. -/
  | add (space : AddressSpace) (type : DataType)
  /-- The code of an array and of the head of lists. -/
  | addList (space : AddressSpace) (type : DataType)

namespace Request

/-- The address space that is asked for. -/
def space : Request → AddressSpace
  | add space _ => space
  | addList space _ => space

/-- The type that is asked for. -/
def type : Request → DataType
  | add _ type => type
  | addList _ type => type

/-- A list is asked for. -/
def IsList : Request → Prop
  | add _ _ => False
  | addList _ _ => True

/-- The work on a request. -/
def step : Request → Generator.Step Unit
  | add space type => Generator.addType space type
  | addList space type => Generator.addList space type

/-- The generator after a request, which may have failed. -/
def serve (generator : Generator) (request : Request) : Generator :=
  (request.step.run.run generator).2

/-- The generator after requests one after the other. -/
def serveAll (generator : Generator) (requests : List Request) : Generator :=
  requests.foldl serve generator

/-- The type that is asked for is one of the registry. -/
def IsFrom (registry : Registry) (request : Request) : Prop := registry.Knows request.type

end Request

/-! ### Types that requests are about -/

section Vocabulary

variable (registry : Registry) (requests : List Request)

/-- The types of a registry and, where lists are asked for, the head of lists. -/
def Vocabulary (type : DataType) : Prop :=
  registry.Knows type ∨ (∃ request ∈ requests, request.IsList) ∧ type = ListHead.type

/-- Where lists are asked for, no other type of the registry passes for the head of lists. -/
def HeadApart : Prop :=
  (∃ request ∈ requests, request.IsList) → ∀ type, registry.Knows type →
    type.name = ListHead.type.name → type.fingerprint = ListHead.type.fingerprint →
      type = ListHead.type

/-- The type was generated for the space on request. -/
def IsEmitted (generator : Generator) (space : AddressSpace) (type : DataType) : Prop :=
  Vocabulary registry requests type ∧ Visit.of space type ∈ generator.visited

end Vocabulary

variable {registry : Registry} {requests first second : List Request}

/-- Without lists nothing can be taken for the head of one. -/
theorem headApart_of_adds (adds : ∀ request ∈ requests, ¬request.IsList) :
    HeadApart registry requests := by
  rintro ⟨request, mem, list⟩
  exact absurd list (adds request mem)

/-- The head of a list can be built. -/
theorem buildable_head : ListHead.type.Buildable := by
  have built : DataType.ofFields "ListHead" (ListHead.fieldNames.map fun name =>
      (name, .scalar .int32)) = .ok ListHead.type := rfl
  refine .record ?_ built
  simp [ListHead.fieldNames, DataType.Buildable.scalar]

/-- The types of a registry and the head of a list are told apart. -/
theorem toldApart_of_closed (closed : registry.Closed) (apart : HeadApart registry requests) :
    ToldApart (Vocabulary registry requests) where
  buildable := by
    rintro type (known | ⟨-, rfl⟩)
    · exact (closed type known).1
    · exact buildable_head
  parts := by
    rintro type (known | ⟨-, rfl⟩) part mem
    · exact Or.inl ((closed type known).2 part mem)
    · obtain ⟨field, among, rfl⟩ := List.mem_map.1 mem
      obtain ⟨name, -, rfl⟩ := List.mem_map.1 among
      exact Or.inl (Registry.find?_scalar registry .int32)
  unique := by
    rintro type other (known | ⟨asked, rfl⟩) (also | ⟨asked', rfl⟩) named marked
    · exact Option.some.inj (known.symm.trans (named ▸ also))
    · exact apart asked' type known named marked
    · exact (apart asked other also named.symm marked.symm).symm
    · rfl

/-! ### What requests reach -/

namespace Request

variable (config : Config) (compiler : Compiler)

/-- The other type is done after the request. -/
def Reached (other : DataType) : Request → Prop
  | add space type => Reaches config compiler space other type
  | addList space type => (type.element?.any (·.isListElement)) = true ∧
    (Reaches config compiler space other ListHead.type ∨
      Generates config compiler space ListHead.type ∧ Reaches config compiler space other type)

variable {among : DataType → Prop} {config : Config} {compiler : Compiler} {space : AddressSpace}
  {type : DataType} {done : List Emission} {generator : Generator}

/-- A request for a type emits what the type reaches. -/
theorem exists_emits_addType (told : ToldApart among) (here : among type) :
    ∃ succeeds, Emits among config compiler space (Generator.addType space type) succeeds
      (Reaches config compiler space · type) := by
  cases type with
  | scalar kind =>
    exact ⟨False, .skip fun _ _ _ => ⟨.error (.unsupportedType kind.name), rfl, by simp⟩⟩
  | _ => exact ⟨_, emits_visit told here⟩

/-- A request for a list emits what its items and the head reach. -/
theorem exists_emits_addList (told : ToldApart among) (here : among type)
    (head : among ListHead.type) :
    ∃ succeeds, Emits among config compiler space (Generator.addList space type) succeeds
      (Reached config compiler · (.addList space type)) := by
  unfold Generator.addList Reached
  cases found : type.element? with
  | none =>
    refine ⟨False, Emits.congr (.skip fun _ _ _ => ?_) Iff.rfl fun other => by simp [found]⟩
    exact ⟨.error (.unsupportedType type.name), rfl, by simp⟩
  | some element =>
    dsimp only
    cases linked : element.isListElement with
    | false =>
      refine ⟨False, Emits.congr (.skip fun _ _ _ => ?_) Iff.rfl fun other => by
        simp [found, linked]⟩
      exact ⟨.error (.missingElementField type.name element.name DataType.nextField), rfl, by simp⟩
    | true =>
      obtain ⟨succeeds, emits⟩ := exists_emits_addType told here
      refine ⟨_, ((emits_visit told head).seq emits).congr Iff.rfl fun other => ?_⟩
      simp [found, linked]

/-- One request adds the types that it reaches. -/
theorem traced_serve (told : ToldApart among) {request : Request} (here : among request.type)
    (head : request.IsList → among ListHead.type)
    (traced : Traced among config compiler done generator) :
    ∃ more, Traced among config compiler (done ++ more) (serve generator request) ∧
      ∀ space other, Has (done ++ more) space other ↔
        Has done space other ∨ space = request.space ∧ request.Reached config compiler other := by
  have emits : ∃ succeeds, Emits among config compiler request.space request.step succeeds
      (Reached config compiler · request) := by
    cases request with
    | add space type => exact exists_emits_addType told here
    | addList space type => exact exists_emits_addList told here (head trivial)
  obtain ⟨succeeds, emits⟩ := emits
  obtain ⟨more, outcome, next, run, kept, -, has⟩ := emits done generator traced
  have served : serve generator request = next := congrArg Prod.snd run
  rw [served]
  exact ⟨more, kept, has⟩

/-- Any number of requests add the types that they reach. -/
theorem traced_serveAll (told : ToldApart among) : ∀ {requests : List Request} {done : List Emission}
    {generator : Generator}, (∀ request ∈ requests, among request.type) →
      (∀ request ∈ requests, request.IsList → among ListHead.type) →
      Traced among config compiler done generator →
        ∃ more, Traced among config compiler (done ++ more) (serveAll generator requests) ∧
          ∀ space other, Has (done ++ more) space other ↔
            Has done space other ∨
              ∃ request ∈ requests, space = request.space ∧ request.Reached config compiler other
  | [], done, generator, _, _, traced => by
    refine ⟨[], ?_, fun space other => by simp⟩
    rw [List.append_nil]
    exact traced
  | request :: rest, done, generator, asked, heads, traced => by
    obtain ⟨here, behind⟩ := List.forall_mem_cons.1 asked
    obtain ⟨head, others⟩ := List.forall_mem_cons.1 heads
    obtain ⟨more, kept, has⟩ := traced_serve told here head traced
    obtain ⟨later, last, gets⟩ := traced_serveAll told behind others kept
    rw [List.append_assoc] at last gets
    refine ⟨more ++ later, last, fun space other => ?_⟩
    rw [gets, has, or_assoc, List.exists_mem_cons_iff]

end Request

/-- **The work on requests** about types of a closed registry: the generator has done the types that
the requests reach. -/
theorem exists_traced (closed : registry.Closed) (apart : HeadApart registry requests)
    (asked : ∀ request ∈ requests, request.IsFrom registry) (config : Config)
    (compiler : Compiler) : ∃ done,
      Traced (Vocabulary registry requests) config compiler done
        (Request.serveAll (.start config compiler) requests) ∧
      ∀ space type, Has done space type ↔
        ∃ request ∈ requests, space = request.space ∧ request.Reached config compiler type := by
  obtain ⟨done, traced, has⟩ := Request.traced_serveAll (toldApart_of_closed closed apart)
    (fun request mem => Or.inl (asked request mem))
    (fun request mem list => Or.inr ⟨⟨request, mem, list⟩, rfl⟩) traced_start
  refine ⟨done, traced, fun space type => ?_⟩
  have none : ¬Has [] space type := not_has_nil
  rw [← List.nil_append done, has, or_iff_right none]

/-! ### Units with the same texts -/

/-- Each text of a unit is a text of the other unit. -/
structure CodeUnit.TextsIn (unit other : CodeUnit) : Prop where
  /-- The texts of declared types. -/
  declarations : unit.declarations.map Declaration.text ⊆ other.declarations.map Declaration.text
  /-- The texts of prototypes. -/
  prototypes : unit.prototypes.map Function.prototype ⊆ other.prototypes.map Function.prototype
  /-- The texts of definitions. -/
  bodies : unit.bodies.map Function.definition ⊆ other.bodies.map Function.definition

/-- No text stands twice in a unit. -/
structure CodeUnit.Distinct (unit : CodeUnit) : Prop where
  /-- The texts of declared types differ. -/
  declarations : (unit.declarations.map Declaration.text).Nodup
  /-- The texts of prototypes differ. -/
  prototypes : (unit.prototypes.map Function.prototype).Nodup
  /-- The texts of definitions differ. -/
  bodies : (unit.bodies.map Function.definition).Nodup

/-- Two units have the same code, and perhaps different layouts. -/
structure CodeUnit.SameCode (unit other : CodeUnit) : Prop where
  /-- The declared types are the same. -/
  declarations : unit.declarations = other.declarations
  /-- The prototypes are the same. -/
  prototypes : unit.prototypes = other.prototypes
  /-- The definitions are the same. -/
  bodies : unit.bodies = other.bodies

namespace Traced

variable {among among' : DataType → Prop} {config : Config} {compiler : Compiler}
  {done others more : List Emission} {generator next : Generator}

/-- Nothing is in a unit twice. -/
theorem distinct (traced : Traced among config compiler done generator) :
    generator.unit.Distinct where
  declarations := by
    rw [traced.declarations_eq]
    exact CodeUnit.nodup_texts_distinct _ _
  prototypes := by
    rw [traced.prototypes_eq]
    exact CodeUnit.nodup_texts_distinct _ _
  bodies := by
    rw [traced.bodies_eq]
    exact CodeUnit.nodup_texts_distinct _ _

/-- The list of what is done holds the code of each type that is done. -/
theorem mem_of_has (traced : Traced among config compiler done generator)
    (later : Traced among' config compiler others next) {emission : Emission}
    (mem : emission ∈ done) (has : Has others emission.space emission.type) :
    emission ∈ others := by
  obtain ⟨front, back, split⟩ := List.append_of_mem mem
  have here := (traced.follows front emission back split).made
  obtain ⟨before, code, behind, split, there⟩ := later.exists_follows has
  obtain rfl : emission.code = code := Option.some.inj (here.symm.trans there.made)
  rw [split]
  exact List.mem_append_right _ List.mem_cons_self

/-- Less code has fewer functions. -/
theorem functions_subset (within : more ⊆ done) :
    more.flatMap (·.code.functions) ⊆ done.flatMap (·.code.functions) := by
  intro f mem
  obtain ⟨emission, among, here⟩ := List.mem_flatMap.1 mem
  exact List.mem_flatMap.2 ⟨emission, within among, here⟩

/-- A generator that has done no other types has no other texts. -/
theorem textsIn (traced : Traced among config compiler done generator)
    (later : Traced among' config compiler others next)
    (has : ∀ space type, Has done space type → Has others space type) :
    generator.unit.TextsIn next.unit := by
  have within : done ⊆ others := fun emission mem =>
    traced.mem_of_has later mem (has _ _ ⟨emission, mem, rfl, rfl⟩)
  have functions := functions_subset within
  refine ⟨?_, ?_, ?_⟩
  · rw [traced.declarations_eq, later.declarations_eq]
    intro text mem
    rw [CodeUnit.mem_texts_distinct] at mem ⊢
    exact List.map_subset _ (List.map_subset _ within) mem
  · rw [traced.prototypes_eq, later.prototypes_eq]
    intro text mem
    rw [CodeUnit.mem_texts_distinct] at mem ⊢
    exact List.map_subset _ functions mem
  · rw [traced.bodies_eq, later.bodies_eq]
    intro text mem
    rw [CodeUnit.mem_texts_distinct] at mem ⊢
    exact List.map_subset _ functions mem

/-- A generator that has done no other types since has the same code. -/
theorem sameCode (traced : Traced among config compiler done generator)
    (later : Traced among config compiler (done ++ more) next)
    (has : ∀ space type, Has (done ++ more) space type → Has done space type) :
    next.unit.SameCode generator.unit := by
  have within : more ⊆ done := fun emission mem =>
    later.mem_of_has traced (List.mem_append_right _ mem)
      (has _ _ ⟨emission, List.mem_append_right _ mem, rfl, rfl⟩)
  have functions := functions_subset within
  refine ⟨?_, ?_, ?_⟩
  · rw [later.declarations_eq, traced.declarations_eq, List.map_append]
    exact CodeUnit.distinct_append_of_known fun entry mem =>
      List.mem_map_of_mem (List.map_subset _ within mem)
  · rw [later.prototypes_eq, traced.prototypes_eq, List.flatMap_append]
    exact CodeUnit.distinct_append_of_known fun entry mem => List.mem_map_of_mem (functions mem)
  · rw [later.bodies_eq, traced.bodies_eq, List.flatMap_append]
    exact CodeUnit.distinct_append_of_known fun entry mem => List.mem_map_of_mem (functions mem)

end Traced

/-- What may be taken for a head depends on what is requested only. -/
theorem HeadApart.congr (apart : HeadApart registry first)
    (same : ∀ request, request ∈ second → request ∈ first) : HeadApart registry second := by
  rintro ⟨request, mem, list⟩
  exact apart ⟨request, same request mem, list⟩

/-- **The order of requests does not matter**, nor how often they are repeated: two sequences of the
same requests give units with the same texts, each text once, and a request that is repeated adds no
code.  Where lists are asked for, no other type may pass for the head of lists. -/
theorem sameTexts_of_same_requests {schema : Schema}
    (resolved : schema.toRegistry = .ok registry)
    (asked : ∀ request ∈ first, request.IsFrom registry) (apart : HeadApart registry first)
    (same : ∀ request, request ∈ first ↔ request ∈ second) (config : Config)
    (compiler : Compiler) {here there : Generator}
    (here_eq : here = Request.serveAll (.start config compiler) first)
    (there_eq : there = Request.serveAll (.start config compiler) second) :
    here.unit.TextsIn there.unit ∧ there.unit.TextsIn here.unit ∧
      here.unit.Distinct ∧ there.unit.Distinct ∧
      ∀ request ∈ first, (request.serve here).unit.SameCode here.unit := by
  have closed := Schema.closed_of_toRegistry resolved
  have asked' : ∀ request ∈ second, request.IsFrom registry :=
    fun request mem => asked request ((same request).2 mem)
  have apart' : HeadApart registry second := apart.congr fun request mem => (same request).2 mem
  obtain ⟨done, traced, has⟩ := exists_traced closed apart asked config compiler
  obtain ⟨others, later, gets⟩ := exists_traced closed apart' asked' config compiler
  rw [← here_eq] at traced
  rw [← there_eq] at later
  have alike : ∀ space type, Has done space type ↔ Has others space type := by
    intro space type
    rw [has, gets]
    simp only [same]
  refine ⟨traced.textsIn later fun space type => (alike space type).1,
    later.textsIn traced fun space type => (alike space type).2, traced.distinct,
    later.distinct, ?_⟩
  intro request mem
  have here : Vocabulary registry first request.type := Or.inl (asked request mem)
  have head : request.IsList → Vocabulary registry first ListHead.type :=
    fun list => Or.inr ⟨⟨request, mem, list⟩, rfl⟩
  obtain ⟨more, again, finds⟩ :=
    Request.traced_serve (toldApart_of_closed closed apart) here head traced
  refine traced.sameCode again fun space type found => ?_
  rcases (finds space type).1 found with old | reached
  · exact old
  · exact (has space type).2 ⟨request, mem, reached⟩

/-! ### Nodes and their chain

A chain consists of nodes and a number.  The number is called so that a chain which has the name of
the head of lists has also its fingerprint. -/

/-- The document that declares nodes, a chain of them under the given name and a scene. -/
def chainSchema (chain : String) : Schema where
  types := [
    .record "Node" [⟨"index", "int32", none⟩, ⟨"next", "int32", none⟩],
    .array "Nodes" "Node",
    .record chain [⟨"sfpmclx", "int32", none⟩, ⟨"nodes", "Nodes", none⟩],
    .record "Scene" [⟨"chain", chain, none⟩]]

/-- The nodes. -/
def nodesType : DataType :=
  .array "Nodes" (.record "Node" [("index", .scalar .int32), ("next", .scalar .int32)])

/-- The chain under the given name. -/
def chainType (chain : String) : DataType :=
  .record chain [("sfpmclx", .scalar .int32), ("nodes", nodesType)]

/-- The scene with the chain. -/
def chainSceneType (chain : String) : DataType := .record "Scene" [("chain", chainType chain)]

/-- The types of that document. -/
def chainRegistry (chain : String) : Registry where
  types := [.record "Node" [("index", .scalar .int32), ("next", .scalar .int32)], nodesType,
    chainType chain, chainSceneType chain]

/-- The chain is asked for, and then a list of the nodes. -/
def chainRequests (chain : String) : List Request :=
  [.add .globalMemory (chainType chain), .addList .globalMemory nodesType]

/-- Nothing in the registry of a chain is taken for a head. -/
theorem headApart_chain (requests : List Request) : HeadApart (chainRegistry "Chain") requests := by
  rintro - type known named -
  have unknown : (chainRegistry "Chain").find? ListHead.type.name = none := rfl
  rw [Registry.Knows, named, unknown] at known
  cases known

/-- A chain of its own name can be asked for before the list or behind it, and once more. -/
theorem sameTexts_of_same_requests_chain :
    (chainSchema "Chain").toRegistry = .ok (chainRegistry "Chain") ∧
      (∀ request ∈ chainRequests "Chain", request.IsFrom (chainRegistry "Chain")) ∧
      HeadApart (chainRegistry "Chain") (chainRequests "Chain") ∧
      (Request.serveAll (.start {} {}) (chainRequests "Chain")).unit.TextsIn
        (Request.serveAll (.start {} {})
          ((chainRequests "Chain").reverse ++ chainRequests "Chain")).unit := by
  have resolved : (chainSchema "Chain").toRegistry = .ok (chainRegistry "Chain") := rfl
  have asked : ∀ request ∈ chainRequests "Chain", request.IsFrom (chainRegistry "Chain") := by
    simp only [chainRequests, List.forall_mem_cons, List.not_mem_nil, false_imp_iff, implies_true,
      and_true]
    exact ⟨rfl, rfl⟩
  have apart := headApart_chain (chainRequests "Chain")
  have same : ∀ request, request ∈ chainRequests "Chain" ↔
      request ∈ (chainRequests "Chain").reverse ++ chainRequests "Chain" := by simp
  obtain ⟨within, -⟩ := sameTexts_of_same_requests resolved asked apart same {} {} rfl rfl
  exact ⟨resolved, asked, apart, within⟩

/-- A chain that passes for the head of lists is only generated if it is asked for before the list,
and else the head is. -/
theorem different_texts_chain :
    (chainSchema "ListHead").toRegistry = .ok (chainRegistry "ListHead") ∧
      (∀ request ∈ chainRequests "ListHead", request.IsFrom (chainRegistry "ListHead")) ∧
      (∀ request, request ∈ chainRequests "ListHead" ↔
        request ∈ (chainRequests "ListHead").reverse) ∧
      (Request.serveAll (.start {} {}) (chainRequests "ListHead")).unit.declarations.map (·.name) =
        ["node_t", "nodes_gt", "list_head_gt"] ∧
      (Request.serveAll (.start {} {})
        (chainRequests "ListHead").reverse).unit.declarations.map (·.name) =
          ["list_head_t", "node_t", "nodes_gt"] ∧
      ¬(Request.serveAll (.start {} {}) (chainRequests "ListHead")).unit.TextsIn
        (Request.serveAll (.start {} {}) (chainRequests "ListHead").reverse).unit := by
  have asked : ∀ request ∈ chainRequests "ListHead", request.IsFrom (chainRegistry "ListHead") := by
    simp only [chainRequests, List.forall_mem_cons, List.not_mem_nil, false_imp_iff, implies_true,
      and_true]
    exact ⟨rfl, rfl⟩
  refine ⟨rfl, asked, by simp, by decide +kernel, by decide +kernel, fun within => ?_⟩
  have missing : ¬(Request.serveAll (.start {} {})
      (chainRequests "ListHead")).unit.prototypes.map Function.prototype ⊆
        (Request.serveAll (.start {} {})
          (chainRequests "ListHead").reverse).unit.prototypes.map Function.prototype := by
    decide +kernel
  exact missing within.prototypes

end DeviceBlob.Code
