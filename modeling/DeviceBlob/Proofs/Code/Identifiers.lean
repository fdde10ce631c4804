import DeviceBlob.Proofs.Code.Requests

/-!
# Names that are defined twice

A name in device code is made of a type's name in snake case, of the address space, and for some
functions and constants of the name of a member or a label.  Nothing keeps two of them apart, so a
unit may define a name twice.  Main statement: `defined_once_unless_clash` says for functions, types
and constants what must come together for that.
-/

namespace DeviceBlob.Code

variable {config : Config} {compiler : Compiler} {space place : AddressSpace}
  {type other : DataType} {code code' : TypeCode} {f g : Function}

/-! ### Functions -/

/-- How the name of a function is made of what stands for its type. -/
inductive IsNamedFor (stem : String) : String → Prop
  | sizeof : IsNamedFor stem ("sizeof_" ++ stem)
  | deserialize : IsNamedFor stem ("deserialize_" ++ stem)
  | copy : IsNamedFor stem ("copy_" ++ stem)
  | init : IsNamedFor stem ("init_" ++ stem)
  | get (what : String) : IsNamedFor stem ("get_" ++ (stem ++ "_" ++ what))

/-- A function with the names of two types is named for one thing, or what stands for one of them
goes on behind what stands for the other. -/
theorem IsNamedFor.eq_or_continues {stem stem' name : String} (here : IsNamedFor stem name)
    (there : IsNamedFor stem' name) :
    stem = stem' ∨ Continues stem stem' ∨ Continues stem' stem := by
  generalize same : name = name' at there
  have heads := congrArg (fun text => text.toList.head?) same
  cases here <;> cases there <;> simp at heads
  case get.get what what' =>
    exact (DeviceBlob.eq_or_continues (eq_of_append same)).imp_left And.left
  all_goals exact Or.inl (eq_of_append same)

/-- The name of a function for a vector, with the name of the type in the middle. -/
theorem vector_eq (names : Names) (type : DataType) (member : String) :
    names.vector type member = "get_" ++ (names.stem type ++ "_" ++ member) := by
  rw [← String.toList_inj]
  simp [Names.vector, toString]

/-- The name of the function for an item, with the name of the type in the middle. -/
theorem item_eq (names : Names) (type : DataType) :
    names.item type = "get_" ++ (names.stem type ++ "_" ++ "item") := by
  rw [← String.toList_inj]
  simp [Names.item, toString]

/-- Every function is named for its type. -/
theorem isNamedFor (made : codeOf config compiler space type = some code)
    (mem : f ∈ code.functions) : IsNamedFor ((config.names space).stem type) f.name := by
  cases type with
  | scalar kind => cases made
  | enum enum =>
    cases made
    exact absurd mem List.not_mem_nil
  | record name fields =>
    cases plain : DataType.fieldsPlain fields with
    | true =>
      obtain ⟨layout, -, rfl⟩ := (codeOf_plain_eq_some_iff plain).1 made
      simp only [ofPlainRecord, List.cons_append, List.mem_cons, List.mem_append] at mem
      rcases mem with rfl | copied | loaded
      · exact .sizeof
      · split at copied
        · cases List.mem_singleton.1 copied
          exact .copy
        · exact absurd copied List.not_mem_nil
      · split at loaded
        · obtain ⟨member, -, rfl⟩ := List.mem_map.1 loaded
          rw [vectorFunction, vector_eq]
          exact .get member.name
        · exact absurd loaded List.not_mem_nil
    | false =>
      rw [codeOf_parametric plain] at made
      cases made
      simp only [ofPointerRecord, List.mem_cons, List.not_mem_nil, or_false] at mem
      rcases mem with rfl | rfl
      · exact .sizeof
      · exact .deserialize
  | array name element =>
    cases made
    simp only [ofArray, List.mem_append, List.mem_cons, List.not_mem_nil, or_false] at mem
    rcases mem with (rfl | rfl | rfl) | init
    · exact .sizeof
    · exact .deserialize
    · have named : (itemFunction (config.names space) (.array name element) element).name =
          (config.names space).item (.array name element) := by
        unfold itemFunction
        split <;> rfl
      rw [named, item_eq]
      exact .get "item"
    · split at init
      · cases List.mem_singleton.1 init
        exact .init
      · exact absurd init List.not_mem_nil

/-- The letter that a function's name starts with. -/
def initial (f : Function) : Option Char := f.name.toList.head?

/-- Functions whose names begin with different letters have different names. -/
theorem eq_of_initials {functions : List Function} (nodup : (functions.map initial).Nodup)
    (mem : f ∈ functions) (also : g ∈ functions) (same : f.name = g.name) : f = g := by
  refine List.inj_on_of_nodup_map nodup mem also ?_
  rw [initial, initial, same]

/-- The function that measures a type begins with an `s`. -/
@[simp] theorem initial_sizeof (names : Names) (type : DataType) (body : List Statement) :
    initial (sizeofFunction names type body) = some 's' := by
  simp [initial, sizeofFunction, Names.sizeof, toString]

/-- The function that reads a type begins with a `d`. -/
@[simp] theorem initial_deserialize (names : Names) (type : DataType) (body : List Statement) :
    initial (deserializeFunction names type body) = some 'd' := by
  simp [initial, deserializeFunction, Names.deserialize, toString]

/-- The function that copies a type begins with a `c`. -/
@[simp] theorem initial_copy (names : Names) (type : DataType) (layout : Layout) :
    initial (copyFunction names type layout) = some 'c' := by
  simp [initial, copyFunction, Names.copy, toString]

/-- The function that gets a vector begins with a `g`. -/
@[simp] theorem initial_vector (names : Names) (type : DataType) (member : VectorMember) :
    initial (vectorFunction names type member) = some 'g' := by
  simp [initial, vectorFunction, Names.vector, toString]

/-- The function that gets an item begins with a `g`. -/
@[simp] theorem initial_item (names : Names) (type element : DataType) :
    initial (itemFunction names type element) = some 'g' := by
  unfold itemFunction
  split <;> simp [initial, Names.item, toString]

/-- The function that initialises an array begins with an `i`. -/
@[simp] theorem initial_init (names : Names) (type element : DataType) :
    initial (initFunction names type element) = some 'i' := by
  simp [initial, initFunction, Names.init, toString]

/-- Two vector functions of one type share a name only if two vectors do. -/
theorem vectorFunction_eq {names : Names} {members : List VectorMember}
    (mem : f ∈ members.map (vectorFunction names type))
    (also : g ∈ members.map (vectorFunction names type)) (same : f.name = g.name) :
    f = g ∨ ∃ first ∈ members, ∃ second ∈ members, first ≠ second ∧ first.name = second.name := by
  obtain ⟨first, here, rfl⟩ := List.mem_map.1 mem
  obtain ⟨second, there, rfl⟩ := List.mem_map.1 also
  by_cases equal : first = second
  · exact Or.inl (congrArg _ equal)
  · refine Or.inr ⟨first, here, second, there, equal, ?_⟩
    rw [vectorFunction, vectorFunction, vector_eq, vector_eq] at same
    exact eq_of_append (eq_of_append same)

/-- Two functions of a plain record share a name only if two of its vectors do. -/
theorem eq_of_name_of_plainRecord {names : Names} {vectorAccessors : Bool} {layout : Layout}
    (mem : f ∈ (ofPlainRecord names vectorAccessors type layout).functions)
    (also : g ∈ (ofPlainRecord names vectorAccessors type layout).functions)
    (same : f.name = g.name) :
    f = g ∨ ∃ first ∈ vectorsUnder "" type, ∃ second ∈ vectorsUnder "" type,
      first ≠ second ∧ first.name = second.name := by
  have begins : initial f = initial g := by rw [initial, initial, same]
  -- The functions in front of those that load vectors have initials of their own.
  have split : ∀ f ∈ (ofPlainRecord names vectorAccessors type layout).functions,
      f ∈ [plainSizeof names type, copyFunction names type layout] ∨
        f ∈ (vectorsUnder "" type).map (vectorFunction names type) := by
    intro f mem
    simp only [ofPlainRecord, List.cons_append, List.mem_cons, List.mem_append] at mem
    rcases mem with rfl | copied | loaded
    · exact Or.inl List.mem_cons_self
    · refine Or.inl (List.mem_cons_of_mem _ ?_)
      split at copied
      · exact copied
      · exact absurd copied List.not_mem_nil
    · split at loaded
      · exact Or.inr loaded
      · exact absurd loaded List.not_mem_nil
  have own : ∀ f ∈ [plainSizeof names type, copyFunction names type layout],
      initial f ≠ some 'g' := by simp [plainSizeof]
  have load : ∀ f ∈ (vectorsUnder "" type).map (vectorFunction names type),
      initial f = some 'g' := by simp
  rcases split f mem with front | back <;> rcases split g also with front' | back'
  · exact Or.inl (eq_of_initials (by simp [plainSizeof]) front front' same)
  · exact absurd (begins.trans (load g back')) (own f front)
  · exact absurd (begins.symm.trans (load f back)) (own g front')
  · exact vectorFunction_eq back back' same

/-- Two functions of one type have different names, unless they load vectors of one name. -/
theorem eq_of_name (made : codeOf config compiler space type = some code)
    (mem : f ∈ code.functions) (also : g ∈ code.functions) (same : f.name = g.name) :
    f = g ∨ ∃ first ∈ vectorsUnder "" type, ∃ second ∈ vectorsUnder "" type,
      first ≠ second ∧ first.name = second.name := by
  cases type with
  | scalar kind => cases made
  | enum enum =>
    cases made
    exact absurd mem List.not_mem_nil
  | record name fields =>
    cases plain : DataType.fieldsPlain fields with
    | true =>
      obtain ⟨layout, -, rfl⟩ := (codeOf_plain_eq_some_iff plain).1 made
      exact eq_of_name_of_plainRecord mem also same
    | false =>
      rw [codeOf_parametric plain] at made
      cases made
      refine Or.inl (eq_of_initials ?_ mem also same)
      simp [ofPointerRecord, pointerSizeof, pointerDeserialize]
  | array name element =>
    cases made
    refine Or.inl (eq_of_initials ?_ mem also same)
    cases writable : (config.names space).space.isWritable <;>
      simp [ofArray, arraySizeof, arrayDeserialize, writable]

/-- Why functions of types that were generated can have one name. -/
inductive FunctionClash (config : Config) (emitted : AddressSpace → DataType → Prop) : Prop
  /-- Two types have one name in snake case. -/
  | types {space : AddressSpace} {type other : DataType} (here : emitted space type)
      (there : emitted space other) (apart : type ≠ other)
      (same : Names.snake type = Names.snake other)
  /-- What stands for a type goes on behind what stands for another one. -/
  | continues {space place : AddressSpace} {type other : DataType} (here : emitted space type)
      (there : emitted place other)
      (longer : Continues ((config.names space).stem type) ((config.names place).stem other))
  /-- Two vectors of one type have one name. -/
  | vectors {space : AddressSpace} {type : DataType} {first second : VectorMember}
      (here : emitted space type) (mem : first ∈ vectorsUnder "" type)
      (also : second ∈ vectorsUnder "" type) (apart : first ≠ second)
      (same : first.name = second.name)

/-- Two different functions of one name come from a clash of names between types or between vectors.
-/
theorem functionClash_of_name {emitted : AddressSpace → DataType → Prop}
    (here : emitted space type) (there : emitted place other)
    (made : codeOf config compiler space type = some code)
    (made' : codeOf config compiler place other = some code')
    (mem : f ∈ code.functions) (also : g ∈ code'.functions) (same : f.name = g.name)
    (apart : f ≠ g) : FunctionClash config emitted := by
  have named := isNamedFor made mem
  rw [same] at named
  rcases named.eq_or_continues (isNamedFor made' also) with alike | longer | longer
  · obtain ⟨rfl, snakes⟩ := Names.eq_of_stem alike
    by_cases equal : type = other
    · subst equal
      obtain rfl : code = code' := Option.some.inj (made.symm.trans made')
      rcases eq_of_name made mem also same with equal | ⟨first, m, second, n, differ, alike⟩
      · exact absurd equal apart
      · exact .vectors here m n differ alike
    · exact .types here there equal snakes
  · exact .continues here there longer
  · exact .continues there here longer

/-! ### Types -/

/-- What is declared for a type has the type's name. -/
theorem declaration_name (made : codeOf config compiler space type = some code) :
    code.declaration.name = (config.names space).typeName type := by
  cases type with
  | scalar kind => cases made
  | enum enum =>
    cases made
    rfl
  | record name fields =>
    cases plain : DataType.fieldsPlain fields with
    | true =>
      obtain ⟨layout, -, rfl⟩ := (codeOf_plain_eq_some_iff plain).1 made
      rfl
    | false =>
      rw [codeOf_parametric plain] at made
      cases made
      rfl
  | array name element =>
    cases made
    rfl

/-- Why types that were generated can have one name in device code. -/
inductive TypeClash (config : Config) (emitted : AddressSpace → DataType → Prop) : Prop
  /-- Two types have one name in snake case. -/
  | types {space place : AddressSpace} {type other : DataType} (here : emitted space type)
      (there : emitted place other) (apart : type ≠ other)
      (same : Names.snake type = Names.snake other)
  /-- A type that all spaces share is called like another one with the word for a space in front. -/
  | word {space place : AddressSpace} {type other : DataType} (full : config.naming = .full)
      (here : emitted space type) (there : emitted place other)
      (shared : Names.isShared type = true) (own : Names.isShared other = false)
      (same : Names.snake type = place.word ++ "_" ++ Names.snake other)

/-- A type that all spaces share and one that they do not are called alike only where the name of
the former begins with the word of the space. -/
theorem eq_word_of_typeName {naming : NamingMode} (shared : Names.isShared type = true)
    (own : Names.isShared other = false)
    (same : Names.typeName ⟨space, naming⟩ type = Names.typeName ⟨place, naming⟩ other) :
    naming = .full ∧ Names.snake type = place.word ++ "_" ++ Names.snake other := by
  rw [typeName_of_isShared shared, typeName_of_not_isShared own, ← String.toList_inj,
    String.toList_append] at same
  cases naming with
  | short =>
    rw [Names.toList_stem_short] at same
    have ends := congrArg (fun cs : List Char => cs.reverse[1]?) same
    simp at ends
    cases place <;> simp [AddressSpace.letter] at ends
  | full =>
    rw [Names.toList_stem_full] at same
    refine ⟨rfl, ?_⟩
    rw [← String.toList_inj, (List.append_inj' same rfl).1]
    simp

/-- Only plain types are shared by all spaces. -/
theorem isPlain_of_isShared (shared : Names.isShared type = true) : type.isPlain = true := by
  cases type with
  | scalar kind => cases shared
  | enum enum => rfl
  | record name fields =>
    rw [DataType.isPlain]
    exact shared
  | array name element => cases shared

/-- Two different declarations of one name come from a clash of names between types. -/
theorem typeClash_of_name {emitted : AddressSpace → DataType → Prop}
    (here : emitted space type) (there : emitted place other)
    (made : codeOf config compiler space type = some code)
    (made' : codeOf config compiler place other = some code')
    (same : code.declaration.name = code'.declaration.name)
    (apart : code.declaration ≠ code'.declaration) : TypeClash config emitted := by
  rw [declaration_name made, declaration_name made'] at same
  cases shared : Names.isShared type with
  | true =>
    cases own : Names.isShared other with
    | true =>
      rw [typeName_of_isShared shared, typeName_of_isShared own, ← String.toList_inj,
        String.toList_append, String.toList_append, List.append_cancel_right_eq,
        String.toList_inj] at same
      refine .types here there ?_ same
      rintro rfl
      have alike := declaration_of_isPlain (isPlain_of_isShared shared) config compiler space place
      rw [made, made'] at alike
      exact apart (Option.some.inj alike)
    | false =>
      obtain ⟨full, word⟩ := eq_word_of_typeName shared own same
      exact .word full here there shared own word
  | false =>
    cases own : Names.isShared other with
    | true =>
      obtain ⟨full, word⟩ := eq_word_of_typeName own shared same.symm
      exact .word full there here own shared word
    | false =>
      rw [typeName_of_not_isShared shared, typeName_of_not_isShared own] at same
      obtain ⟨rfl, snakes⟩ := Names.eq_of_stem same
      refine .types here there ?_ snakes
      rintro rfl
      obtain rfl : code = code' := Option.some.inj (made.symm.trans made')
      exact apart rfl

/-! ### Constants -/

/-- What the constants for a type start with. -/
def upper (type : DataType) : String := Text.toUpper (Names.snake type)

/-- The macro for the size of a type begins with the name of the type. -/
theorem sizeMacro_eq (type : DataType) : Names.sizeMacro type = upper type ++ "_" ++ "SIZE" := by
  rw [← String.toList_inj]
  simp [Names.sizeMacro, upper, toString]

/-- The constant for a label begins with the name of the enum. -/
theorem enumConstant_eq (type : DataType) (label : String) :
    Names.enumConstant type label = upper type ++ "_" ++ Text.toUpper (Name.snake label) := by
  rw [← String.toList_inj]
  simp [Names.enumConstant, upper, toString]

/-- The constants of a type: those of an enum stand for its labels, and a plain record has one for
its size. -/
theorem constant_cases (made : codeOf config compiler space type = some code)
    {constant : String × Int} (mem : constant ∈ code.declaration.macros) :
    (∃ enum, type = .enum enum ∧ ∃ entry ∈ allLabels enum,
      constant = (upper type ++ "_" ++ Text.toUpper (Name.snake entry.2), entry.1)) ∨
    ∃ name fields layout, type = .record name fields ∧ compiler.plainLayout type = .ok layout ∧
      constant = (upper type ++ "_" ++ "SIZE", (layout.size : Int)) := by
  cases type with
  | scalar kind => cases made
  | enum enum =>
    cases made
    obtain ⟨shown, listed, rfl⟩ := List.mem_map.1 mem
    obtain ⟨entry, among, rfl⟩ := List.mem_map.1 listed
    refine Or.inl ⟨enum, rfl, entry, among, ?_⟩
    rw [← enumConstant_eq]
  | record name fields =>
    cases plain : DataType.fieldsPlain fields with
    | true =>
      obtain ⟨layout, compiled, rfl⟩ := (codeOf_plain_eq_some_iff plain).1 made
      have only : constant = (Names.sizeMacro (.record name fields), (layout.size : Int)) :=
        List.mem_singleton.1 mem
      refine Or.inr ⟨name, fields, layout, rfl, compiled, ?_⟩
      rw [only, sizeMacro_eq]
    | false =>
      rw [codeOf_parametric plain] at made
      cases made
      exact absurd mem List.not_mem_nil
  | array name element =>
    cases made
    exact absurd mem List.not_mem_nil

/-- Each constant of a type begins with the name of the type. -/
theorem exists_constant_eq (made : codeOf config compiler space type = some code)
    {constant : String × Int} (mem : constant ∈ code.declaration.macros) :
    ∃ rest, constant.1 = upper type ++ "_" ++ rest := by
  rcases constant_cases made mem with ⟨enum, -, entry, -, rfl⟩ | ⟨name, fields, layout, -, -, rfl⟩
  · exact ⟨_, rfl⟩
  · exact ⟨_, rfl⟩

/-- Why constants of types that were generated can have one name and different values. -/
inductive ConstantClash (emitted : AddressSpace → DataType → Prop) : Prop
  /-- Two types have one name in upper case. -/
  | types {space place : AddressSpace} {type other : DataType} (here : emitted space type)
      (there : emitted place other) (apart : type ≠ other) (same : upper type = upper other)
  /-- The name of a type in upper case goes on behind that of another one. -/
  | continues {space place : AddressSpace} {type other : DataType} (here : emitted space type)
      (there : emitted place other) (longer : Continues (upper type) (upper other))
  /-- Two labels of one enum have one name in upper case. -/
  | labels {space : AddressSpace} {enum : EnumType} {first second : Int × String}
      (here : emitted space (.enum enum)) (mem : first ∈ allLabels enum)
      (also : second ∈ allLabels enum) (apart : first.1 ≠ second.1)
      (same : Text.toUpper (Name.snake first.2) = Text.toUpper (Name.snake second.2))

/-- Two constants of one name and of different values come from a clash of names. -/
theorem constantClash_of_name {emitted : AddressSpace → DataType → Prop}
    (here : emitted space type) (there : emitted place other)
    (made : codeOf config compiler space type = some code)
    (made' : codeOf config compiler place other = some code') {first second : String × Int}
    (mem : first ∈ code.declaration.macros) (also : second ∈ code'.declaration.macros)
    (same : first.1 = second.1) (apart : first.2 ≠ second.2) : ConstantClash emitted := by
  by_cases equal : type = other
  · subst equal
    rcases constant_cases made mem with
      ⟨enum, rfl, entry, listed, rfl⟩ | ⟨name, fields, layout, rfl, compiled, rfl⟩
    · rcases constant_cases made' also with
        ⟨_, alike, entry', listed', rfl⟩ | ⟨_, _, _, alike, -⟩
      · cases alike
        refine .labels here listed listed' apart ?_
        dsimp only at same
        exact eq_of_append same
      · cases alike
    · rcases constant_cases made' also with ⟨_, alike, -⟩ | ⟨_, _, layout', -, compiled', rfl⟩
      · cases alike
      · cases compiled.symm.trans compiled'
        exact absurd rfl apart
  · obtain ⟨rest, named⟩ := exists_constant_eq made mem
    obtain ⟨rest', named'⟩ := exists_constant_eq made' also
    rw [named, named'] at same
    rcases eq_or_continues same with ⟨alike, -⟩ | longer | longer
    · exact .types here there equal alike
    · exact .continues here there longer
    · exact .continues there here longer

/-! ### Units made on request -/

variable {registry : Registry} {requests : List Request} {generator : Generator}

/-- **No name is defined twice, unless names clash.**  After any requests about types of one
document, no two functions and no two types in a unit have one name, and no constant has two values,
unless two types that were generated, two vectors of such a type or two labels of such an enum come
to one name, or what stands for a type goes on behind what stands for another one.  Where lists are
asked for, no other type may pass for the head of lists. -/
theorem defined_once_unless_clash {schema : Schema} (resolved : schema.toRegistry = .ok registry)
    (asked : ∀ request ∈ requests, request.IsFrom registry) (apart : HeadApart registry requests)
    (config : Config) (compiler : Compiler)
    (reached : generator = Request.serveAll (.start config compiler) requests) :
    (FunctionClash config (IsEmitted registry requests generator) ∨
      (generator.unit.bodies.map Function.name).Nodup) ∧
    (TypeClash config (IsEmitted registry requests generator) ∨
      (generator.unit.declarations.map Declaration.name).Nodup) ∧
    (ConstantClash (IsEmitted registry requests generator) ∨
      ∀ first ∈ generator.unit.declarations.flatMap Declaration.macros,
        ∀ second ∈ generator.unit.declarations.flatMap Declaration.macros,
          first.1 = second.1 → first.2 = second.2) := by
  have closed := Schema.closed_of_toRegistry resolved
  have told := toldApart_of_closed closed apart
  obtain ⟨done, traced, -⟩ := exists_traced closed apart asked config compiler
  rw [← reached] at traced
  have emitted : ∀ {space type}, Has done space type →
      IsEmitted registry requests generator space type := fun has =>
    ⟨traced.member has, (traced.mem_visited_iff told (traced.member has)).2 has⟩
  refine ⟨or_iff_not_imp_left.2 fun clear => ?_, or_iff_not_imp_left.2 fun clear => ?_,
    or_iff_not_imp_left.2 fun clear => ?_⟩
  · refine List.Nodup.map_on (fun f mem g also same => ?_) traced.distinct.bodies.of_map
    obtain ⟨space, type, code, here, made, mem⟩ := traced.exists_of_mem_bodies mem
    obtain ⟨place, other, code', there, made', also⟩ := traced.exists_of_mem_bodies also
    by_contra differ
    exact clear (functionClash_of_name (emitted here) (emitted there) made made' mem also same
      differ)
  · refine List.Nodup.map_on (fun d mem e also same => ?_) traced.distinct.declarations.of_map
    obtain ⟨space, type, code, here, made, rfl⟩ := traced.exists_of_mem_declarations mem
    obtain ⟨place, other, code', there, made', rfl⟩ := traced.exists_of_mem_declarations also
    by_contra differ
    exact clear (typeClash_of_name (emitted here) (emitted there) made made' same differ)
  · intro first mem second also same
    obtain ⟨d, listed, mem⟩ := List.mem_flatMap.1 mem
    obtain ⟨e, listed', also⟩ := List.mem_flatMap.1 also
    obtain ⟨space, type, code, here, made, rfl⟩ := traced.exists_of_mem_declarations listed
    obtain ⟨place, other, code', there, made', rfl⟩ := traced.exists_of_mem_declarations listed'
    by_contra differ
    exact clear (constantClash_of_name (emitted here) (emitted there) made made' mem also same
      differ)

/-- The document that declares points. -/
def pointSchema : Schema where
  types := [
    .record "Point" [⟨"x", "float32", none⟩, ⟨"y", "float32", none⟩, ⟨"z", "float32", none⟩]]

/-- A point. -/
def pointType : DataType :=
  .record "Point" [("x", .scalar .float32), ("y", .scalar .float32), ("z", .scalar .float32)]

/-- Points are asked for. -/
def pointRequests : List Request := [.add .globalMemory pointType]

/-- Nothing but the point is emitted here. -/
theorem eq_of_isEmitted_point
    (emitted : IsEmitted ⟨[pointType]⟩ pointRequests
      (Request.serveAll (.start {} {}) pointRequests) space type) :
    space = .globalMemory ∧ type = pointType := by
  obtain ⟨known | ⟨⟨request, mem, list⟩, -⟩, marked⟩ := emitted
  · have visited : (Request.serveAll (.start {} {}) pointRequests).visited =
        [Visit.of .globalMemory pointType] := by decide +kernel
    rw [visited, List.mem_singleton] at marked
    obtain ⟨named, -, placed⟩ := Visit.mk.inj marked
    have found : Registry.find? ⟨[pointType]⟩ pointType.name = some pointType := rfl
    rw [Registry.Knows, named, found] at known
    exact ⟨placed, (Option.some.inj known).symm⟩
  · cases List.mem_singleton.1 mem
    exact list.elim

/-- Nothing is defined twice for points. -/
theorem defined_once_unless_clash_point :
    pointSchema.toRegistry = .ok ⟨[pointType]⟩ ∧
      (∀ request ∈ pointRequests, request.IsFrom ⟨[pointType]⟩) ∧
      HeadApart ⟨[pointType]⟩ pointRequests ∧
      ((Request.serveAll (.start {} {}) pointRequests).unit.declarations.map
        Declaration.name).Nodup := by
  have resolved : pointSchema.toRegistry = .ok ⟨[pointType]⟩ := rfl
  have asked : ∀ request ∈ pointRequests, request.IsFrom ⟨[pointType]⟩ := by
    simp only [pointRequests, List.forall_mem_cons, List.not_mem_nil, false_imp_iff, implies_true,
      and_true]
    exact rfl
  have apart : HeadApart ⟨[pointType]⟩ pointRequests :=
    headApart_of_adds (by simp [pointRequests, Request.IsList])
  obtain ⟨-, types, -⟩ := defined_once_unless_clash resolved asked apart {} {} rfl
  refine ⟨resolved, asked, apart, types.resolve_left ?_⟩
  rintro (⟨here, there, differ, -⟩ | ⟨full, -⟩)
  · exact differ ((eq_of_isEmitted_point here).2.trans (eq_of_isEmitted_point there).2.symm)
  · cases full

/-! ### A rig

It has two cells whose names differ in the case of a letter, a probe with two vectors of one name
that name their components in two ways, and a mode with two labels that differ in the case of a
letter. -/

/-- The document that declares the parts of the rig. -/
def rigSchema : Schema where
  types := [
    .record "Cell" [⟨"x", "int32", none⟩],
    .record "cell" [⟨"y", "int32", none⟩],
    .record "Probe" [⟨"color_x", "float32", none⟩, ⟨"color_y", "float32", none⟩,
      ⟨"color_z", "float32", none⟩, ⟨"color_0", "float32", none⟩, ⟨"color_1", "float32", none⟩,
      ⟨"color_2", "float32", none⟩, ⟨"color_3", "float32", none⟩],
    .enum "Mode" ⟨[("1", "idle"), ("2", "Idle")], by decide⟩]

/-- The parts of the rig. -/
def rigTypes : List DataType := [
  .record "Cell" [("x", .scalar .int32)],
  .record "cell" [("y", .scalar .int32)],
  .record "Probe" [("color_x", .scalar .float32), ("color_y", .scalar .float32),
    ("color_z", .scalar .float32), ("color_0", .scalar .float32), ("color_1", .scalar .float32),
    ("color_2", .scalar .float32), ("color_3", .scalar .float32)],
  .enum {
    name := "Mode"
    labels := ⟨[(1, "idle"), (2, "Idle")], by decide⟩
    ordinal_ne_zero := by decide
    label_declarable := by decide
    labels_nodup := by decide }]

/-- All parts are asked for. -/
def rigRequests : List Request := rigTypes.map (.add .globalMemory)

/-- The parts of the rig are generated, and functions, a type and a constant are defined twice. -/
theorem defined_twice_rig :
    rigSchema.toRegistry = .ok ⟨rigTypes⟩ ∧
      (∀ request ∈ rigRequests, request.IsFrom ⟨rigTypes⟩ ∧ ¬request.IsList) ∧
      (Generator.generate {} {} rigTypes .globalMemory).isOk = true ∧
      (Request.serveAll (.start {} {}) rigRequests).unit.bodies.map Function.name =
        ["sizeof_cell_gt", "copy_cell_gt", "copy_cell_gt", "sizeof_probe_gt", "copy_probe_gt",
          "get_probe_gt_color", "get_probe_gt_color"] ∧
      (Request.serveAll (.start {} {}) rigRequests).unit.declarations.map Declaration.name =
        ["cell_t", "cell_t", "probe_t", "mode_t"] ∧
      (Request.serveAll (.start {} {}) rigRequests).unit.declarations.flatMap Declaration.macros =
        [("CELL_SIZE", 4), ("CELL_SIZE", 4), ("PROBE_SIZE", 32), ("MODE_UNDEFINED", 0),
          ("MODE_IDLE", 1), ("MODE_IDLE", 2)] := by
  refine ⟨rfl, ?_, ?_, ?_, ?_, ?_⟩
  · simp only [rigRequests, rigTypes, List.map_cons, List.map_nil, List.forall_mem_cons,
      List.not_mem_nil, false_imp_iff, implies_true, and_true]
    exact ⟨⟨rfl, id⟩, ⟨rfl, id⟩, ⟨rfl, id⟩, rfl, id⟩
  all_goals decide +kernel

end DeviceBlob.Code
