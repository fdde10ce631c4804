import DeviceBlob.Proofs.Code.Names
import DeviceBlob.Proofs.Code.PointerRecord
import DeviceBlob.Proofs.Registry

/-!
# The code of a type on its own

What is generated for a type depends on the type, the address space and the choices of the user, but
not on what was generated before (`codeOf`).  The functions in it call only functions of the parts
that the type is made of, and these are in the code of the parts (`exists_callee`).
-/

namespace DeviceBlob.Code

/-- The names in an address space. -/
def Config.names (config : Config) (space : AddressSpace) : Names := ⟨space, config.naming⟩

/-- The code of a type.  Scalars have none, and neither have plain records without a layout. -/
def codeOf (config : Config) (compiler : Compiler) (space : AddressSpace) :
    DataType → Option TypeCode
  | .scalar _ => none
  | .enum enum => some (ofEnum (config.names space) enum)
  | .record name fields =>
    if DataType.fieldsPlain fields then
      (compiler.plainLayout (.record name fields)).toOption.map
        (ofPlainRecord (config.names space) config.vectorAccessors (.record name fields))
    else some (ofPointerRecord (config.names space) (.record name fields)
      (SizePlan.fieldTerms compiler.packing (VectorRun.padded compiler.packing fields) 0 fields))
  | .array name element => some (ofArray (config.names space) (.array name element) element)

variable {config : Config} {compiler : Compiler} {space : AddressSpace} {type part : DataType}
  {code partCode : TypeCode}

/-! ### Records -/

/-- A plain record has code exactly if it has a layout. -/
theorem codeOf_plain_eq_some_iff {name : String} {fields : List (String × DataType)}
    (plain : DataType.fieldsPlain fields = true) :
    codeOf config compiler space (.record name fields) = some code ↔
      ∃ layout, compiler.plainLayout (.record name fields) = .ok layout ∧
        code = ofPlainRecord (config.names space) config.vectorAccessors (.record name fields)
          layout := by
  rw [codeOf, if_pos plain]
  cases compiler.plainLayout (.record name fields) with
  | ok layout => simp [Except.toOption, eq_comm]
  | error e => simp [Except.toOption]

/-- A record with parameters always has code. -/
theorem codeOf_parametric {name : String} {fields : List (String × DataType)}
    (parametric : DataType.fieldsPlain fields = false) :
    codeOf config compiler space (.record name fields) =
      some (ofPointerRecord (config.names space) (.record name fields)
        (SizePlan.fieldTerms compiler.packing (VectorRun.padded compiler.packing fields) 0
          fields)) := by
  rw [codeOf, if_neg (by rw [parametric]; exact Bool.false_ne_true)]

/-- A generator looks at the layout of a plain record, and at nothing else. -/
theorem run_recordCode_of_plain {generator : Generator} (plain : type.isPlain = true) :
    (Generator.recordCode space type).run.run generator =
      match generator.compiler.plainLayout type with
      | .ok layout => (.ok (ofPlainRecord (generator.config.names space)
          generator.config.vectorAccessors type layout),
          generator.register ((generator.config.names space).typeName type) layout)
      | .error e => (.error e, generator) := by
  simp only [Generator.recordCode, plain, if_true]
  show (do
    let layout ← liftExcept (generator.compiler.plainLayout type)
    modify (·.register ((generator.names space).typeName type) layout)
    return ofPlainRecord (generator.names space) generator.config.vectorAccessors type layout :
      Generator.Step TypeCode).run.run generator = _
  cases generator.compiler.plainLayout type with
  | ok layout => rfl
  | error e => rfl

/-- A generator makes the code of a record, and it may register a layout. -/
theorem run_recordCode {generator : Generator} {name : String}
    {fields : List (String × DataType)}
    (made : codeOf generator.config generator.compiler space (.record name fields) = some code) :
    ∃ layouts, (Generator.recordCode space (.record name fields)).run.run generator =
      (.ok code, { generator with unit := { generator.unit with layouts := layouts } }) := by
  cases plain : DataType.fieldsPlain fields with
  | true =>
    obtain ⟨layout, compiled, rfl⟩ := (codeOf_plain_eq_some_iff plain).1 made
    rw [run_recordCode_of_plain (by rw [DataType.isPlain, plain]), compiled]
    exact ⟨_, rfl⟩
  | false =>
    rw [codeOf_parametric plain] at made
    have shaped : (DataType.record name fields).isPlain = false := by rw [DataType.isPlain, plain]
    rw [recordCode_eq shaped (SizePlan.ofType_of_parametric shaped)]
    cases made
    exact ⟨generator.unit.layouts, rfl⟩

/-- A generator that cannot make the code of a record stays as it is. -/
theorem run_recordCode_of_none {generator : Generator} {name : String}
    {fields : List (String × DataType)}
    (none : codeOf generator.config generator.compiler space (.record name fields) = none) :
    ∃ e, (Generator.recordCode space (.record name fields)).run.run generator =
      (.error e, generator) := by
  cases plain : DataType.fieldsPlain fields with
  | true =>
    rw [run_recordCode_of_plain (by rw [DataType.isPlain, plain])]
    rw [codeOf, if_pos plain] at none
    cases compiled : generator.compiler.plainLayout (.record name fields) with
    | ok layout =>
      rw [compiled] at none
      cases none
    | error e => exact ⟨e, rfl⟩
  | false =>
    rw [codeOf_parametric plain] at none
    cases none

/-! ### Declarations -/

/-- The name of a shared type does not depend on the space. -/
theorem typeName_of_isShared {names : Names} (shared : Names.isShared type = true) :
    names.typeName type = Names.snake type ++ "_t" := by
  rw [Names.typeName, if_pos shared]
  rfl

/-- The name of any other type does. -/
theorem typeName_of_not_isShared {names : Names} (apart : Names.isShared type = false) :
    names.typeName type = names.stem type := by
  rw [Names.typeName, if_neg (by rw [apart]; exact Bool.false_ne_true)]

/-- A type without parameters is declared in one way for all spaces. -/
theorem declaration_of_isPlain (plain : type.isPlain = true) (config : Config)
    (compiler : Compiler) (space place : AddressSpace) :
    (codeOf config compiler space type).map (·.declaration) =
      (codeOf config compiler place type).map (·.declaration) := by
  cases type with
  | scalar kind => rfl
  | enum enum => rfl
  | record name fields =>
    rw [DataType.isPlain] at plain
    have shared : Names.isShared (.record name fields) = true := plain
    simp only [codeOf, plain, if_true, Option.map_map]
    congr 1
    funext layout
    simp only [Function.comp_apply, ofPlainRecord, plainDeclaration, typeName_of_isShared shared]
  | array name element => cases plain

/-- A type with parameters is declared as a struct of pointers for one space. -/
theorem declaration_of_parametric (made : codeOf config compiler space type = some code)
    (parametric : type.isPlain = false) : ∃ members, code.declaration =
      .struct (if type.isArray then .array else .complex) ((config.names space).stem type)
        members := by
  cases type with
  | scalar kind => cases parametric
  | enum enum => cases parametric
  | record name fields =>
    rw [DataType.isPlain] at parametric
    have apart : Names.isShared (.record name fields) = false := parametric
    rw [codeOf_parametric parametric] at made
    cases made
    rw [ofPointerRecord, pointerDeclaration, typeName_of_not_isShared apart]
    exact ⟨_, rfl⟩
  | array name element =>
    cases made
    exact ⟨_, rfl⟩

/-- The text of a struct has the name of the struct near its start. -/
theorem exists_structText (form : StructForm) (name : String) (members : List Member) :
    ∃ rest, (Declaration.struct form name members).text =
      "/* " ++ (form.word ++ (" type " ++ (name ++ rest))) := by
  have text : ∀ s : String, toString s = s := fun _ => rfl
  unfold Declaration.text
  simp only [String.append_assoc, text]
  exact ⟨_, rfl⟩

/-- Two structs of one form with one text have names that are equal as far as both go. -/
theorem exists_names_of_text {form : StructForm} {name other : String}
    {members others : List Member}
    (same : (Declaration.struct form name members).text =
      (Declaration.struct form other others).text) :
    ∃ rest rest', name.toList ++ rest = other.toList ++ rest' := by
  obtain ⟨rest, here⟩ := exists_structText form name members
  obtain ⟨rest', there⟩ := exists_structText form other others
  rw [here, there] at same
  have named := congrArg String.toList (eq_of_append (eq_of_append (eq_of_append same)))
  rw [String.toList_append, String.toList_append] at named
  exact ⟨_, _, named⟩

/-! ### Functions and the functions they call -/

/-- Every record and every array has a function that measures it. -/
theorem exists_sizeof (made : codeOf config compiler space type = some code)
    (struct : type.isPlain = true → type.fields?.isSome = true) :
    ∃ f ∈ code.functions, f.name = (config.names space).sizeof type := by
  cases type with
  | scalar kind => cases struct rfl
  | enum enum => cases struct rfl
  | record name fields =>
    cases plain : DataType.fieldsPlain fields with
    | true =>
      obtain ⟨layout, -, rfl⟩ := (codeOf_plain_eq_some_iff plain).1 made
      exact ⟨_, List.mem_cons_self, rfl⟩
    | false =>
      rw [codeOf_parametric plain] at made
      cases made
      exact ⟨_, List.mem_cons_self, rfl⟩
  | array name element =>
    cases made
    exact ⟨_, List.mem_cons_self, rfl⟩

/-- Every type with parameters has a function that sets pointers. -/
theorem exists_deserialize (made : codeOf config compiler space type = some code)
    (parametric : type.isPlain = false) :
    ∃ f ∈ code.functions, f.name = (config.names space).deserialize type := by
  cases type with
  | scalar kind => cases parametric
  | enum enum => cases parametric
  | record name fields =>
    rw [DataType.isPlain] at parametric
    rw [codeOf_parametric parametric] at made
    cases made
    exact ⟨_, List.mem_cons_of_mem _ List.mem_cons_self, rfl⟩
  | array name element =>
    cases made
    exact ⟨_, List.mem_cons_of_mem _ List.mem_cons_self, rfl⟩

/-- A function that is called measures a part of the type, which is a record or an array, or it sets
the pointers of a part with parameters. -/
def CallsPart (names : Names) (type : DataType) (called : String) : Prop :=
  ∃ part ∈ type.parts,
    ((part.isPlain = true → part.fields?.isSome = true) ∧ called = names.sizeof part) ∨
      (part.isPlain = false ∧ called = names.deserialize part)

/-- The size of a field is that of its type. -/
theorem callsPart_of_stride {names : Names} {packing : Packing} {runs : List VectorRun}
    {name called : String} {fields : List (String × DataType)} {term : String × SizePlan}
    (nodup : (fields.map (·.1)).Nodup) (mem : term ∈ SizePlan.fieldTerms packing runs 0 fields)
    (call : called ∈ (strideOf names (.record name fields) term).calls) :
    CallsPart names (.record name fields) called := by
  unfold strideOf at call
  split at call
  · next field open_ found =>
    obtain ⟨part, among, same⟩ := exists_field_of_term mem open_
    have named : (DataType.record name fields).field? term.1 = some part :=
      (SortedMap.lookup_eq_some_iff_of_nodup nodup).2 among
    obtain rfl : part = field := Option.some.inj (named.symm.trans found)
    refine ⟨part, List.mem_map_of_mem among, Or.inl ⟨fun plain => ?_, List.mem_singleton.1 call⟩⟩
    obtain ⟨bytes, fixed⟩ := SizePlan.ofType_fixed_of_isPlain packing plain
    rw [same, fixed] at open_
    cases open_
  · exact absurd call List.not_mem_nil

/-- The member for a field is read by the function of its type. -/
theorem callsPart_of_assignment {names : Names} {name term called : String}
    {fields : List (String × DataType)} {statement : Statement}
    (nodup : (fields.map (·.1)).Nodup) (mem : statement ∈
      ((TermMember.ofTerm names (.record name fields) term).assignment? names term).toList)
    (call : called ∈ statement.calls) : CallsPart names (.record name fields) called := by
  unfold TermMember.ofTerm at mem
  cases found : (DataType.record name fields).field? term with
  | none =>
    rw [found] at mem
    exact absurd mem List.not_mem_nil
  | some part =>
    rw [found] at mem
    have among : part ∈ (DataType.record name fields).parts :=
      List.mem_map_of_mem ((SortedMap.lookup_eq_some_iff_of_nodup nodup).1 found)
    cases part with
    | scalar kind =>
      cases List.mem_singleton.1 mem
      exact absurd call List.not_mem_nil
    | enum enum =>
      cases List.mem_singleton.1 mem
      exact absurd call List.not_mem_nil
    | record inner others =>
      dsimp only [TermMember.ofType] at mem
      cases plain : DataType.fieldsPlain others with
      | true =>
        rw [if_pos plain] at mem
        cases List.mem_singleton.1 mem
        exact absurd call List.not_mem_nil
      | false =>
        rw [if_neg (by rw [plain]; exact Bool.false_ne_true)] at mem
        cases List.mem_singleton.1 mem
        exact ⟨_, among, Or.inr ⟨plain, List.mem_singleton.1 call⟩⟩
    | array inner element =>
      cases List.mem_singleton.1 mem
      exact ⟨_, among, Or.inr ⟨rfl, List.mem_singleton.1 call⟩⟩

section Walk

variable {names : Names} {packing : Packing} {runs : List VectorRun} {name called : String}
  {fields : List (String × DataType)} {statement : Statement}

/-- A walk over fields calls functions of their types only. -/
theorem callsPart_of_walk (nodup : (fields.map (·.1)).Nodup) :
    ∀ {terms : List (String × SizePlan)},
      (∀ term ∈ terms, term ∈ SizePlan.fieldTerms packing runs 0 fields) →
      statement ∈ walkTerms names (.record name fields) terms → called ∈ statement.calls →
        CallsPart names (.record name fields) called
  | [], _, mem, _ => absurd mem List.not_mem_nil
  | term :: rest, within, mem, call => by
    obtain ⟨here, behind⟩ := List.forall_mem_cons.1 within
    rw [walkTerms, List.mem_append, List.mem_append] at mem
    rcases mem with (set | moved) | later
    · exact callsPart_of_assignment nodup set call
    · split at moved
      · exact absurd moved List.not_mem_nil
      · cases List.mem_singleton.1 moved
        exact callsPart_of_stride nodup here call
    · exact callsPart_of_walk nodup behind later call

/-- The functions of a record with parameters call functions of its fields only. -/
theorem callsPart_of_pointerRecord {terms : List (String × SizePlan)} {f : Function}
    (nodup : (fields.map (·.1)).Nodup)
    (planned : terms = SizePlan.fieldTerms packing runs 0 fields)
    (mem : f ∈ (ofPointerRecord names (.record name fields) terms).functions)
    (called_in : called ∈ f.calls) : CallsPart names (.record name fields) called := by
  obtain ⟨statement, among, call⟩ := List.mem_flatMap.1 called_in
  have within : ∀ term ∈ terms, term ∈ SizePlan.fieldTerms packing runs 0 fields := by
    rw [planned]
    exact fun _ => id
  simp only [ofPointerRecord, List.mem_cons, List.not_mem_nil, or_false] at mem
  rcases mem with rfl | rfl
  · simp only [pointerSizeof, sizeofFunction, List.mem_cons, List.cons_append, List.mem_append,
      List.mem_map, List.not_mem_nil, or_false] at among
    rcases among with rfl | ⟨term, mem, rfl⟩ | rfl
    · exact absurd call List.not_mem_nil
    · exact callsPart_of_stride nodup (within term mem) call
    · exact absurd call List.not_mem_nil
  · rcases List.mem_cons.1 among with rfl | walked
    · exact absurd call List.not_mem_nil
    · exact callsPart_of_walk nodup within walked call

end Walk

/-- The functions of a plain record call nothing. -/
theorem not_calls_of_plainRecord {names : Names} {vectorAccessors : Bool} {layout : Layout}
    {f : Function} (mem : f ∈ (ofPlainRecord names vectorAccessors type layout).functions) :
    f.calls = [] := by
  have lines : ∀ lines : List String, (lines.map Statement.line).flatMap (·.calls) = [] := by
    intro lines
    rw [List.flatMap_map, List.flatMap_eq_nil_iff]
    exact fun _ _ => rfl
  simp only [ofPlainRecord, List.mem_cons, List.mem_append, List.cons_append] at mem
  rcases mem with rfl | copied | loaded
  · rfl
  · split at copied
    · cases List.mem_singleton.1 copied
      rw [Function.calls, copyFunction, List.flatMap_cons]
      have each := lines (layout.accessors.map fun place =>
        s!"destination->{place.name} = source->{place.name};")
      rw [List.map_map] at each
      exact each
    · exact absurd copied List.not_mem_nil
  · split at loaded
    · obtain ⟨member, -, rfl⟩ := List.mem_map.1 loaded
      rfl
    · exact absurd loaded List.not_mem_nil

/-- The functions of an array call functions of its elements only. -/
theorem callsPart_of_array {names : Names} {name called : String} {element : DataType}
    {f : Function} (starts : element.startsWithIndex = true)
    (mem : f ∈ (ofArray names (.array name element) element).functions)
    (call : called ∈ f.calls) : CallsPart names (.array name element) called := by
  have struct : element.fields?.isSome = true := by
    obtain ⟨inner, rest, rfl⟩ := DataType.startsWithIndex_iff.1 starts
    rfl
  have measured : called = names.sizeof element → CallsPart names (.array name element) called :=
    fun same => ⟨element, List.mem_cons_self, Or.inl ⟨fun _ => struct, same⟩⟩
  simp only [ofArray, List.mem_append, List.mem_cons, List.not_mem_nil, or_false] at mem
  rcases mem with (rfl | rfl | rfl) | init
  · exact measured (List.mem_singleton.1 call)
  · exact absurd call List.not_mem_nil
  · unfold itemFunction at call
    split at call
    · exact measured (List.mem_singleton.1 call)
    · next parametric =>
      rcases List.mem_cons.1 call with same | filled
      · exact measured same
      · refine ⟨element, List.mem_cons_self, Or.inr ⟨?_, List.mem_singleton.1 filled⟩⟩
        exact Bool.not_eq_true _ ▸ parametric
  · split at init
    · cases List.mem_singleton.1 init
      exact absurd call List.not_mem_nil
    · exact absurd init List.not_mem_nil

/-- The functions of a type call functions of its parts only. -/
theorem callsPart (buildable : type.Buildable)
    (made : codeOf config compiler space type = some code) {f : Function}
    (mem : f ∈ code.functions) {called : String} (call : called ∈ f.calls) :
    CallsPart (config.names space) type called := by
  cases type with
  | scalar kind => cases made
  | enum enum =>
    cases made
    exact absurd mem List.not_mem_nil
  | record name fields =>
    obtain ⟨-, -, -, -, nodup, -⟩ := DataType.ofFields_eq_ok_iff.1 buildable.ofFields_eq_ok
    cases plain : DataType.fieldsPlain fields with
    | true =>
      obtain ⟨layout, -, rfl⟩ := (codeOf_plain_eq_some_iff plain).1 made
      rw [not_calls_of_plainRecord mem] at call
      exact absurd call List.not_mem_nil
    | false =>
      rw [codeOf_parametric plain] at made
      cases made
      exact callsPart_of_pointerRecord nodup rfl mem call
  | array name element =>
    cases made
    exact callsPart_of_array buildable.startsWithIndex mem call

/-- What a type calls is a function in the code of a part. -/
theorem exists_callee {called : String} (calls : CallsPart (config.names space) type called) :
    ∃ part ∈ type.parts, part.scalar? = none ∧
      ∀ code, codeOf config compiler space part = some code →
        ∃ f ∈ code.functions, f.name = called := by
  obtain ⟨part, mem, ⟨struct, rfl⟩ | ⟨parametric, rfl⟩⟩ := calls
  · refine ⟨part, mem, ?_, fun code made => exists_sizeof made struct⟩
    cases part with
    | scalar kind => cases struct rfl
    | _ => rfl
  · refine ⟨part, mem, ?_, fun code made => exists_deserialize made parametric⟩
    cases part with
    | scalar kind => cases parametric
    | _ => rfl

end DeviceBlob.Code
