import DeviceBlob.Proofs.Code.Requests

/-!
# Generated units are closed and ordered

A unit can be compiled if each type is declared behind the types that it is made of, and if the
functions that are called are there.  Since parts are done before the types that are made of them,
this holds of the list of what is done, and the unit keeps the first entry of each text on it.  So a
text stands behind those of the parts of the type that brought it first (`exists_partsFirst`), and
every function that is called has its prototype and its definition in the unit.

Two types may have one text, although the names of their parts differ where the struct does not show
them.  Then the text stands where the first of them was generated, which may be in front of the
parts of the other.
-/

namespace DeviceBlob.Code

section Order

variable (config : Config) (compiler : Compiler)

/-- The text of the type's declaration. -/
def declaredText (space : AddressSpace) (type : DataType) : Option String :=
  (codeOf config compiler space type).map (·.declaration.text)

/-- The text of the type is among the texts, and those of its parts are in front of it. -/
def partsFirst (texts : List String) (space : AddressSpace) (type : DataType) : Bool :=
  (declaredText config compiler space type).any fun text =>
    texts.contains text && type.parts.all fun part =>
      part.scalar?.isSome || (declaredText config compiler space part).any fun own =>
        (texts.takeWhile (· != text)).contains own

end Order

variable {registry : Registry} {requests : List Request} {among : DataType → Prop}
  {config : Config} {compiler : Compiler} {space place : AddressSpace} {type part : DataType}
  {done : List Emission} {generator : Generator}

/-- The parts of a type are declared in front of it if they are in front of its first declaration.
-/
theorem partsFirst_of_split {text : String} {texts front back : List String}
    (declared : declaredText config compiler space type = some text)
    (split : texts = front ++ text :: back) (new : text ∉ front)
    (parts : ∀ part ∈ type.parts, part.scalar? = none →
      ∃ own ∈ front, declaredText config compiler space part = some own) :
    partsFirst config compiler texts space type = true := by
  have before : texts.takeWhile (· != text) = front := by
    rw [split, List.takeWhile_append_of_pos, List.takeWhile_cons_of_neg (by simp), List.append_nil]
    intro other mem
    rw [bne_iff_ne]
    rintro rfl
    exact new mem
  rw [partsFirst, declared, Option.any_some, before, Bool.and_eq_true, List.all_eq_true]
  refine ⟨by simp [split], fun part mem => ?_⟩
  rw [Bool.or_eq_true, Option.isSome_iff_ne_none]
  by_cases made : part.scalar? = none
  · obtain ⟨own, here, declared⟩ := parts part mem made
    rw [declared, Option.any_some, List.contains_iff_mem]
    exact Or.inr here
  · exact Or.inl made

namespace Traced

/-- What was emitted for a type is the text that is declared for it. -/
theorem declaredText_of_mem (traced : Traced among config compiler done generator)
    {emission : Emission} (mem : emission ∈ done) :
    declaredText config compiler emission.space emission.type =
      some emission.code.declaration.text := by
  obtain ⟨front, back, split⟩ := List.append_of_mem mem
  rw [declaredText, (traced.follows front emission back split).made, Option.map_some]

/-- The text of a type stands behind those of the parts of a type with the same text. -/
theorem exists_partsFirst (traced : Traced among config compiler done generator)
    (has : Has done space type) :
    ∃ place twin, Has done place twin ∧
      declaredText config compiler place twin = declaredText config compiler space type ∧
      partsFirst config compiler (generator.unit.declarations.map Declaration.text) place twin =
        true := by
  obtain ⟨emission, mem, rfl, rfl⟩ := has
  obtain ⟨front, first, back, split, alike, new⟩ :=
    CodeUnit.exists_first (fun emission : Emission => emission.code.declaration.text) mem
  have here : first ∈ done := by
    rw [split]
    exact List.mem_append_right _ List.mem_cons_self
  refine ⟨first.space, first.type, ⟨first, here, rfl, rfl⟩, ?_, ?_⟩
  · rw [traced.declaredText_of_mem here, traced.declaredText_of_mem mem, alike]
  · have unknown : first.code.declaration.text ∉
        (front.map (·.code.declaration)).map Declaration.text := by
      rw [List.map_map]
      exact new
    obtain ⟨rest, kept⟩ := CodeUnit.distinct_split (back.map (·.code.declaration)) unknown
    rw [traced.declarations_eq, split, List.map_append, List.map_cons, kept, List.map_append,
      List.map_cons]
    refine partsFirst_of_split (traced.declaredText_of_mem here) rfl
      (fun known => unknown (CodeUnit.mem_texts_distinct.1 known)) fun part mem made => ?_
    obtain ⟨other, among, placed, rfl⟩ :=
      (traced.follows front first back split).parts part mem made
    have before : other ∈ done := by
      rw [split]
      exact List.mem_append_left _ among
    refine ⟨other.code.declaration.text, ?_, ?_⟩
    · rw [CodeUnit.mem_texts_distinct]
      exact List.mem_map_of_mem (List.mem_map_of_mem among)
    · rw [← placed]
      exact traced.declaredText_of_mem before

/-- The functions that are called are in the unit. -/
theorem exists_called (told : ToldApart among) (traced : Traced among config compiler done generator)
    {f : Function} (mem : f ∈ generator.unit.bodies) {called : String} (call : called ∈ f.calls) :
    ∃ callee : Function, callee.name = called ∧
      callee.prototype ∈ generator.unit.prototypes.map Function.prototype ∧
      callee.definition ∈ generator.unit.bodies.map Function.definition := by
  obtain ⟨space, type, code, has, made, mem⟩ := traced.exists_of_mem_bodies mem
  have calls := callsPart (told.buildable _ (traced.member has)) made mem call
  obtain ⟨part, among, made, offers⟩ := exists_callee calls
  obtain ⟨front, own, back, split, follows⟩ :=
    traced.exists_follows (traced.has_part has among made)
  obtain ⟨callee, mem, named⟩ := offers own follows.made
  have listed : callee ∈ done.flatMap (·.code.functions) := by
    rw [split]
    exact List.mem_flatMap.2 ⟨_, List.mem_append_right _ List.mem_cons_self, mem⟩
  refine ⟨callee, named, ?_, ?_⟩
  · rw [traced.prototypes_eq, CodeUnit.mem_texts_distinct]
    exact List.mem_map_of_mem listed
  · rw [traced.bodies_eq, CodeUnit.mem_texts_distinct]
    exact List.mem_map_of_mem listed

end Traced

/-! ### One type in two spaces -/

/-- A type without parameters is declared in one way for all spaces. -/
theorem declaredText_of_isPlain (plain : type.isPlain = true) (space place : AddressSpace) :
    declaredText config compiler space type = declaredText config compiler place type := by
  have same := congrArg (Option.map Declaration.text)
    (declaration_of_isPlain plain config compiler space place)
  rwa [Option.map_map, Option.map_map] at same

/-- A type with parameters is declared anew for each space. -/
theorem space_of_declaredText (parametric : type.isPlain = false)
    (made : (declaredText config compiler space type).isSome = true)
    (same : declaredText config compiler space type = declaredText config compiler place type) :
    space = place := by
  obtain ⟨text, declared⟩ := Option.isSome_iff_exists.1 made
  obtain ⟨here, made, written⟩ := Option.map_eq_some_iff.1 declared
  obtain ⟨there, also, rewritten⟩ := Option.map_eq_some_iff.1 (same.symm.trans declared)
  obtain ⟨members, declaration⟩ := declaration_of_parametric made parametric
  obtain ⟨others, declaration'⟩ := declaration_of_parametric also parametric
  rw [declaration] at written
  rw [declaration', ← written] at rewritten
  obtain ⟨rest, rest', named⟩ := exists_names_of_text rewritten
  exact (Names.space_of_stem named).symm

/-- The fields of a plain record are plain. -/
theorem isPlain_of_mem_fields {field : String × DataType} :
    ∀ {fields : List (String × DataType)}, DataType.fieldsPlain fields = true → field ∈ fields →
      field.2.isPlain = true
  | (name, type) :: rest, plain, mem => by
    rw [DataType.fieldsPlain, Bool.and_eq_true] at plain
    rcases List.mem_cons.1 mem with rfl | mem
    · exact plain.1
    · exact isPlain_of_mem_fields plain.2 mem

/-- The parts of a plain type are plain. -/
theorem isPlain_of_mem_parts (plain : type.isPlain = true) (mem : part ∈ type.parts) :
    part.isPlain = true := by
  cases type with
  | scalar kind => exact absurd mem List.not_mem_nil
  | enum enum => exact absurd mem List.not_mem_nil
  | record name fields =>
    obtain ⟨field, among, rfl⟩ := List.mem_map.1 mem
    rw [DataType.isPlain] at plain
    exact isPlain_of_mem_fields plain among
  | array name element => cases plain

/-- Where the text of a type is that for another space, so are those of its parts. -/
theorem partsFirst_congr (made : (declaredText config compiler space type).isSome = true)
    (same : declaredText config compiler space type = declaredText config compiler place type)
    (texts : List String) :
    partsFirst config compiler texts space type = partsFirst config compiler texts place type := by
  cases plain : type.isPlain with
  | false => rw [space_of_declaredText plain made same]
  | true =>
    unfold partsFirst
    rw [same]
    refine congrArg (Option.any · _) (funext fun text => congrArg _ ?_)
    rw [Bool.eq_iff_iff, List.all_eq_true, List.all_eq_true]
    refine forall₂_congr fun part mem => ?_
    rw [declaredText_of_isPlain (isPlain_of_mem_parts plain mem) space place]

/-! ### Units made on request -/

/-- **Generated units are closed and ordered** after any requests about types of one document,
whether they succeed or fail.  Where a type was generated, the text of its declaration stands behind
those of the parts of a type with the same text; this is the type itself if it is the only one with
this text.  No declaration is there twice.  Each function that is called has its prototype and its
definition in the unit.  Where lists are asked for, no other type may pass for the head of lists. -/
theorem closed_and_ordered {schema : Schema} (resolved : schema.toRegistry = .ok registry)
    (asked : ∀ request ∈ requests, request.IsFrom registry) (apart : HeadApart registry requests)
    (config : Config) (compiler : Compiler)
    (reached : generator = Request.serveAll (.start config compiler) requests) :
    (∀ space type, IsEmitted registry requests generator space type →
      (∃ place twin, IsEmitted registry requests generator place twin ∧
        declaredText config compiler place twin = declaredText config compiler space type ∧
        partsFirst config compiler (generator.unit.declarations.map Declaration.text) place twin =
          true) ∧
      ((∀ place other, IsEmitted registry requests generator place other →
          declaredText config compiler place other = declaredText config compiler space type →
            other = type) →
        partsFirst config compiler (generator.unit.declarations.map Declaration.text) space type =
          true)) ∧
    (generator.unit.declarations.map Declaration.text).Nodup ∧
    ∀ f ∈ generator.unit.bodies, ∀ called ∈ f.calls, ∃ callee : Function, callee.name = called ∧
      callee.prototype ∈ generator.unit.prototypes.map Function.prototype ∧
      callee.definition ∈ generator.unit.bodies.map Function.definition := by
  have closed := Schema.closed_of_toRegistry resolved
  have told := toldApart_of_closed closed apart
  obtain ⟨done, traced, -⟩ := exists_traced closed apart asked config compiler
  rw [← reached] at traced
  refine ⟨fun space type emitted => ?_, traced.distinct.declarations,
    fun f mem called call => traced.exists_called told mem call⟩
  have has := (traced.mem_visited_iff told emitted.1).1 emitted.2
  obtain ⟨place, twin, found, alike, first⟩ := traced.exists_partsFirst has
  have member := traced.member found
  have also : IsEmitted registry requests generator place twin :=
    ⟨member, (traced.mem_visited_iff told member).2 found⟩
  refine ⟨⟨place, twin, also, alike, first⟩, fun alone => ?_⟩
  obtain rfl := alone place twin also alike
  have made : (declaredText config compiler space twin).isSome = true := by
    rw [declaredText, Option.isSome_map]
    exact traced.isSome has
  rw [partsFirst_congr made alike.symm]
  exact first

/-- The nodes of a chain are asked for as a list, and then a scene for two spaces. -/
def chainSceneRequests (chain : String) : List Request :=
  [.addList .globalMemory nodesType, .add .globalMemory (chainSceneType chain),
    .add .constantMemory (chainSceneType chain)]

/-- The theorem applied to a registry with a list and to the requests for a scene of it. -/
theorem closed_and_ordered_chain :
    (chainSchema "Chain").toRegistry = .ok (chainRegistry "Chain") ∧
      (∀ request ∈ chainSceneRequests "Chain", request.IsFrom (chainRegistry "Chain")) ∧
      HeadApart (chainRegistry "Chain") (chainSceneRequests "Chain") ∧
      ∀ f ∈ (Request.serveAll (.start {} {}) (chainSceneRequests "Chain")).unit.bodies,
        ∀ called ∈ f.calls, ∃ callee : Function, callee.name = called ∧
          callee.prototype ∈ (Request.serveAll (.start {} {})
            (chainSceneRequests "Chain")).unit.prototypes.map Function.prototype ∧
          callee.definition ∈ (Request.serveAll (.start {} {})
            (chainSceneRequests "Chain")).unit.bodies.map Function.definition := by
  have resolved : (chainSchema "Chain").toRegistry = .ok (chainRegistry "Chain") := rfl
  have asked : ∀ request ∈ chainSceneRequests "Chain",
      request.IsFrom (chainRegistry "Chain") := by
    simp only [chainSceneRequests, List.forall_mem_cons, List.not_mem_nil, false_imp_iff,
      implies_true, and_true]
    exact ⟨rfl, rfl, rfl⟩
  have apart := headApart_chain (chainSceneRequests "Chain")
  obtain ⟨-, -, called⟩ := closed_and_ordered resolved asked apart {} {} rfl
  exact ⟨resolved, asked, apart, called⟩

/-! ### Two pairs of one name

Their sides have different names, but a plain struct shows only what is in them. -/

/-- The document that declares two sides and two pairs. -/
def pairSchema : Schema where
  types := [
    .record "Left" [⟨"x", "int32", none⟩],
    .record "Right" [⟨"x", "int32", none⟩],
    .record "Pair" [⟨"side", "Left", none⟩],
    .record "pair" [⟨"side", "Right", none⟩]]

/-- A pair under the given name with the given side. -/
def pairType (name side : String) : DataType :=
  .record name [("side", .record side [("x", .scalar .int32)])]

/-- The types of that document. -/
def pairRegistry : Registry where
  types := [.record "Left" [("x", .scalar .int32)], .record "Right" [("x", .scalar .int32)],
    pairType "Pair" "Left", pairType "pair" "Right"]

/-- Both pairs are asked for. -/
def pairRequests : List Request :=
  [.add .globalMemory (pairType "Pair" "Left"), .add .globalMemory (pairType "pair" "Right")]

/-- The struct for both pairs stands in front of the side of the second one; and where a chain
passes for the head of lists, a function of it is called but not generated. -/
theorem not_closed_and_ordered_pair :
    (pairSchema.toRegistry = .ok pairRegistry ∧
      (∀ request ∈ pairRequests, request.IsFrom pairRegistry) ∧
      IsEmitted pairRegistry pairRequests (Request.serveAll (.start {} {}) pairRequests)
        .globalMemory (pairType "pair" "Right") ∧
      (Request.serveAll (.start {} {}) pairRequests).unit.declarations.map (·.name) =
        ["left_t", "pair_t", "right_t"] ∧
      partsFirst {} {} ((Request.serveAll (.start {} {})
        pairRequests).unit.declarations.map Declaration.text) .globalMemory
          (pairType "pair" "Right") = false) ∧
    ((chainSchema "ListHead").toRegistry = .ok (chainRegistry "ListHead") ∧
      (∀ request ∈ chainSceneRequests "ListHead", request.IsFrom (chainRegistry "ListHead")) ∧
      "deserialize_list_head_gt" ∈ (Request.serveAll (.start {} {})
        (chainSceneRequests "ListHead")).unit.bodies.flatMap Function.calls ∧
      "deserialize_list_head_gt" ∉ (Request.serveAll (.start {} {})
        (chainSceneRequests "ListHead")).unit.bodies.map (·.name) ∧
      "deserialize_list_head_gt" ∉ (Request.serveAll (.start {} {})
        (chainSceneRequests "ListHead")).unit.prototypes.map (·.name)) := by
  have asked : ∀ request ∈ pairRequests, request.IsFrom pairRegistry := by
    simp only [pairRequests, List.forall_mem_cons, List.not_mem_nil, false_imp_iff, implies_true,
      and_true]
    exact ⟨rfl, rfl⟩
  have asked' : ∀ request ∈ chainSceneRequests "ListHead",
      request.IsFrom (chainRegistry "ListHead") := by
    simp only [chainSceneRequests, List.forall_mem_cons, List.not_mem_nil, false_imp_iff,
      implies_true, and_true]
    exact ⟨rfl, rfl, rfl⟩
  have emitted : IsEmitted pairRegistry pairRequests
      (Request.serveAll (.start {} {}) pairRequests) .globalMemory (pairType "pair" "Right") :=
    ⟨Or.inl rfl, by decide +kernel⟩
  refine ⟨⟨rfl, asked, emitted, ?_, ?_⟩, rfl, asked', ?_, ?_, ?_⟩
  all_goals decide +kernel

end DeviceBlob.Code
