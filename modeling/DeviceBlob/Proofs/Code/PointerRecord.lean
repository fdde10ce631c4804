import DeviceBlob.Code.Generator
import DeviceBlob.Proofs.Layout.SizePlan
import DeviceBlob.Proofs.Layout.WellFormed
import DeviceBlob.Proofs.SortedMap

/-!
# Pointers into records with parameters

The struct for a record with parameters and the function that sets its pointers are made by a walk
over the terms of the record's size plan, which are its fields and its padding.  A term counts as a
field if a field has its name.  So the walk is at the right offset at every term
(`assigned_walkTerms`), and it sets the members of those parts of the layout whose names are
declared.  These are the fields and no padding exactly if no padding has the name of a field
(`pointers_match_layout_iff`).
-/

namespace DeviceBlob.Code

open LayoutCache (runOn)

variable {names : Names} {packing : Packing} {type : DataType} {params : Params}

/-! ### What a walk does -/

/-- How many bytes a stride over the term with the given name comes to.  A function that measures
counts only if it is that of the field of this name, and then it gives what the field's size plan
evaluates to. -/
def Stride.width? (names : Names) (packing : Packing) (type : DataType) (params : Params)
    (term : String) : Stride → Option Nat
  | .bytes count => some count
  | .measured function => (type.field? term).bind fun part =>
    if function = names.sizeof part then
      ((SizePlan.ofType packing part).evaluate (params.inside term)).toOption
    else none

/-- The members that statements set, each with the offset at which the walk is then, if it is at the
given offset before them.  The width of a stride over a term is given. -/
def assigned (width? : String → Stride → Option Nat) (offset : Nat) :
    List Statement → Option (List (String × Nat))
  | [] => some []
  | .point member _ :: rest => (assigned width? offset rest).map ((member, offset) :: ·)
  | .fill member _ :: rest => (assigned width? offset rest).map ((member, offset) :: ·)
  | .advance counter stride term :: rest =>
    if counter = "offset" then
      (width? term stride).bind fun bytes => assigned width? (offset + bytes) rest
    else assigned width? offset rest
  | _ :: rest => assigned width? offset rest

/-- The term has the name of a field. -/
def isDeclared (type : DataType) (name : String) : Bool := (type.field? name).isSome

/-- A field is declared when it is one of the record. -/
theorem isDeclared_iff {name field : String} {fields : List (String × DataType)}
    (nodup : (fields.map (·.1)).Nodup) :
    isDeclared (.record name fields) field = true ↔ field ∈ fields.map (·.1) := by
  rw [isDeclared, Option.isSome_iff_exists]
  simp only [DataType.field?, DataType.fields?, Option.bind_some,
    SortedMap.lookup_eq_some_iff_of_nodup nodup, List.mem_map, Prod.exists]
  constructor
  · rintro ⟨part, mem⟩
    exact ⟨field, part, mem, rfl⟩
  · rintro ⟨_, part, mem, rfl⟩
    exact ⟨part, mem⟩

/-! ### Terms as members -/

namespace TermMember

/-- A field has a member, which has its name. -/
theorem exists_member (names : Names) (type : DataType) (name : String) :
    ∃ member, (ofType names type).member? names name = some member ∧ member.name = name := by
  cases type with
  | record inner fields =>
    rw [ofType]
    split
    · exact ⟨_, rfl, rfl⟩
    · exact ⟨_, rfl, rfl⟩
  | _ => exact ⟨_, rfl, rfl⟩

/-- The member of a field is set by one statement. -/
theorem assigned_assignment (width? : String → Stride → Option Nat) (names : Names)
    (type : DataType) (name : String) (offset : Nat) (rest : List Statement) :
    assigned width? offset (((ofType names type).assignment? names name).toList ++ rest) =
      (assigned width? offset rest).map ((name, offset) :: ·) := by
  cases type with
  | record inner fields =>
    rw [ofType]
    split
    · rfl
    · rfl
  | _ => rfl

/-- A term is set if it has the name of a field, and else it is passed over. -/
theorem assigned_term (width? : String → Stride → Option Nat) (names : Names) (type : DataType)
    (term : String) (offset : Nat) (rest : List Statement) :
    assigned width? offset (((ofTerm names type term).assignment? names term).toList ++ rest) =
      (assigned width? offset rest).map
        ((if isDeclared type term then [(term, offset)] else []) ++ ·) := by
  unfold ofTerm isDeclared
  cases type.field? term with
  | some field => exact assigned_assignment width? names field term offset rest
  | none => exact Option.map_id'.symm

/-- A term has a member of its name if that is the name of a field, and else none. -/
theorem member_name (names : Names) (type : DataType) (term : String) :
    ((ofTerm names type term).member? names term).map (·.name) =
      Option.guard (isDeclared type) term := by
  unfold ofTerm Option.guard isDeclared
  cases type.field? term with
  | some field =>
    obtain ⟨member, here, named⟩ := exists_member names field term
    exact (congrArg (Option.map (·.name)) here).trans (congrArg some named)
  | none => rfl

end TermMember

/-- The struct has a member for each term with the name of a field. -/
theorem memberNames_eq (names : Names) (type : DataType) (terms : List (String × SizePlan)) :
    (terms.filterMap fun term => (TermMember.ofTerm names type term.1).member? names term.1).map
      (·.name) = (terms.map (·.1)).filter (isDeclared type) := by
  rw [List.map_filterMap, ← List.filterMap_eq_filter, List.filterMap_map]
  exact List.filterMap_congr fun term _ => TermMember.member_name names type term.1

/-! ### The walk over the terms -/

/-- A term without a fixed size is that of a field. -/
theorem exists_field_of_term {runs : List VectorRun} {term : String × SizePlan} :
    ∀ {fields : List (String × DataType)} {position : Nat},
      term ∈ SizePlan.fieldTerms packing runs position fields → term.2.fixed? = none →
        ∃ part, (term.1, part) ∈ fields ∧ term.2 = SizePlan.ofType packing part
  | [], _, mem, _ => by
    rw [SizePlan.fieldTerms] at mem
    exact absurd mem List.not_mem_nil
  | (name, part) :: rest, position, mem, open_ => by
    simp only [SizePlan.fieldTerms, List.cons_append, List.mem_cons, List.mem_append] at mem
    rcases mem with rfl | padding | behind
    · exact ⟨part, List.mem_cons_self, rfl⟩
    · simp only [SizePlan.paddingTerm, Option.mem_toList, Option.map_eq_some_iff] at padding
      obtain ⟨run, -, rfl⟩ := padding
      cases open_
    · obtain ⟨other, among, same⟩ := exists_field_of_term behind open_
      exact ⟨other, List.mem_cons_of_mem _ among, same⟩

/-- The walk moves on over a term by the size that the term evaluates to. -/
theorem width?_strideOf {name : String} {fields : List (String × DataType)} {runs : List VectorRun}
    {position size : Nat} {term : String × SizePlan} (nodup : (fields.map (·.1)).Nodup)
    (mem : term ∈ SizePlan.fieldTerms packing runs position fields)
    (evaluated : term.2.evaluate (params.inside term.1) = .ok size) :
    (strideOf names (.record name fields) term).width? names packing (.record name fields) params
      term.1 = some size := by
  obtain ⟨label, plan⟩ := term
  cases fixed : plan.fixed? with
  | some bytes =>
    have plan_eq : plan = .fixed bytes := by
      cases plan with
      | fixed _ => exact congrArg SizePlan.fixed (Option.some.inj fixed)
      | array _ _ _ => cases fixed
      | record _ _ => cases fixed
    rw [plan_eq, SizePlan.evaluate] at evaluated
    simp only [strideOf, fixed]
    exact congrArg some (Except.ok.inj evaluated)
  | none =>
    obtain ⟨part, among, plan_eq⟩ := exists_field_of_term mem fixed
    have found : (DataType.record name fields).field? label = some part :=
      (SortedMap.lookup_eq_some_iff_of_nodup nodup).2 among
    dsimp only at plan_eq evaluated
    rw [plan_eq] at evaluated
    simp only [strideOf, fixed, found, Stride.width?, Option.bind_some, if_true, evaluated]
    rfl

/-- The walk is at the offset of each part of the layout when it comes to the part's term, and it
sets the members for those parts that have the name of a field. -/
theorem assigned_walkTerms {width? : String → Stride → Option Nat}
    {terms : List (String × SizePlan)} {parts : List (String × Layout)}
    (fit : List.Forall₂ (SizePlan.Fits params) terms parts) :
    ∀ offset : Nat, (∀ term ∈ terms, ∀ size, term.2.evaluate (params.inside term.1) = .ok size →
      width? term.1 (strideOf names type term) = some size) →
        assigned width? offset (walkTerms names type terms) =
          some (((Layout.placeFields offset parts).filter fun place =>
            isDeclared type place.name).map fun place => (place.name, place.offset)) := by
  induction fit with
  | nil =>
    intro _ _
    rfl
  | @cons term part terms parts here rest ih =>
    intro offset widths
    obtain ⟨name, layout⟩ := part
    obtain ⟨rfl, size⟩ := here
    have width := widths term List.mem_cons_self _ size
    have behind := ih (offset + layout.size)
      fun other mem => widths other (List.mem_cons_of_mem _ mem)
    have moved : assigned width? offset
        ((if terms.isEmpty then [] else [.advance "offset" (strideOf names type term) term.1]) ++
          walkTerms names type terms) =
        assigned width? (offset + layout.size) (walkTerms names type terms) := by
      -- Behind the last term the walk does not move on, but then nothing is left to be set.
      cases terms with
      | nil => rfl
      | cons other terms =>
        simp only [List.isEmpty_cons, Bool.false_eq_true, if_false, List.singleton_append, assigned,
          if_true, width, Option.bind_some]
    rw [walkTerms, List.append_assoc, TermMember.assigned_term, moved, behind, Layout.placeFields,
      List.filter_cons, Option.map_some]
    split
    · rfl
    · rfl

/-- The function that sets the pointers of a record sets those of the declared parts. -/
theorem assigned_of_fits {name : String} {fields : List (String × DataType)}
    {runs : List VectorRun} {position : Nat} {parts : List (String × Layout)}
    (nodup : (fields.map (·.1)).Nodup)
    (fit : List.Forall₂ (SizePlan.Fits params)
      (SizePlan.fieldTerms packing runs position fields) parts) (start : String) :
    assigned (Stride.width? names packing (.record name fields) params) 0
      (.line start :: walkTerms names (.record name fields)
        (SizePlan.fieldTerms packing runs position fields)) =
      some (((Layout.placeFields 0 parts).filter fun place =>
        isDeclared (.record name fields) place.name).map fun place => (place.name, place.offset)) :=
  assigned_walkTerms fit 0 fun _ mem _ evaluated => width?_strideOf nodup mem evaluated

/-! ### Fields and padding -/

/-- The places of fields have the names and contents of the fields. -/
theorem contents_placeFields : ∀ (offset : Nat) (fields : List (String × Layout)),
    (Layout.placeFields offset fields).map (fun place => (place.name, place.content)) = fields
  | _, [] => rfl
  | offset, (name, layout) :: rest => by
    rw [Layout.placeFields, List.map_cons, contents_placeFields]

/-- The members are those of the parts that have the name of a field. -/
theorem memberNames_of_fits {terms : List (String × SizePlan)} {parts : List (String × Layout)}
    (fit : List.Forall₂ (SizePlan.Fits params) terms parts) (offset : Nat) :
    (terms.filterMap fun term => (TermMember.ofTerm names type term.1).member? names term.1).map
      (·.name) =
        ((Layout.placeFields offset parts).filter fun place => isDeclared type place.name).map
          (·.name) := by
  have named : terms.map (·.1) = parts.map (·.1) := by
    induction fit with
    | nil => rfl
    | cons here _ ih => rw [List.map_cons, List.map_cons, here.1, ih]
  have placed := congrArg (List.map (·.1)) (contents_placeFields offset parts)
  rw [List.map_map] at placed
  rw [memberNames_eq, named, ← placed, List.filter_map]
  rfl

/-- The parts of a record that are no padding are its fields. -/
theorem names_of_placeFields {runs : List VectorRun} {fields : List (String × DataType)}
    {parts : List (String × Layout)} {position : Nat}
    (placed : Layout.placeAll packing params runs position fields = .ok parts) (offset : Nat) :
    ((Layout.placeFields offset parts).filter fun place => !place.content.isPadding).map (·.name) =
      fields.map (·.1) := by
  have values := Layout.valueNames_of_placeAll placed
  rw [Layout.valueNames, ← contents_placeFields offset parts, List.filter_map,
    List.map_map] at values
  exact values

section Declared

variable {places : List Field} {declared : String → Bool}

/-- If no padding has a declared name, the parts with declared names are those that are no
padding. -/
theorem filter_declared_eq
    (each : ∀ place ∈ places, place.content.isPadding = false → declared place.name = true)
    (apart : ∀ place ∈ places, place.content.isPadding = true → declared place.name = false) :
    (places.filter fun place => declared place.name) =
      places.filter fun place => !place.content.isPadding := by
  refine List.filter_congr fun place mem => ?_
  cases padded : place.content.isPadding with
  | true => rw [apart place mem padded, Bool.not_true]
  | false => rw [each place mem padded, Bool.not_false]

/-- If there are no more parts with declared names than parts that are no padding, no padding has a
declared name. -/
theorem apart_of_length_eq
    (each : ∀ place ∈ places, place.content.isPadding = false → declared place.name = true)
    (as_many : (places.filter fun place => declared place.name).length =
      (places.filter fun place => !place.content.isPadding).length) :
    ∀ place ∈ places, place.content.isPadding = true → declared place.name = false := by
  have inner : (places.filter fun place => declared place.name).filter
      (fun place => !place.content.isPadding) =
        places.filter fun place => !place.content.isPadding := by
    rw [List.filter_filter]
    refine List.filter_congr fun other among => ?_
    cases value : other.content.isPadding with
    | true => rw [Bool.not_true, Bool.false_and]
    | false => rw [each other among value, Bool.not_false, Bool.and_true]
  rw [← inner, eq_comm, List.length_filter_eq_length_iff] at as_many
  intro place mem padded
  rw [← Bool.not_eq_true]
  intro shown
  have value := as_many place (List.mem_filter.2 ⟨mem, shown⟩)
  rw [padded] at value
  cases value

end Declared

/-- The generator emits the struct and the functions for the terms of the size plan. -/
theorem recordCode_eq {generator : Generator} {space : AddressSpace} {name : String}
    {terms : List (String × SizePlan)} (parametric : type.isPlain = false)
    (plan : SizePlan.ofType generator.compiler.packing type = .record name terms) :
    (Generator.recordCode space type).run.run generator =
      (.ok (ofPointerRecord (generator.names space) type terms), generator) := by
  have planned : Generator.planTerms type (SizePlan.ofType generator.compiler.packing type) =
      .ok terms := by rw [plan, Generator.planTerms]
  simp only [Generator.recordCode, parametric, Bool.false_eq_true, if_false]
  show (do return ofPointerRecord (generator.names space) type (← liftExcept
    (Generator.planTerms type (SizePlan.ofType generator.compiler.packing type))) :
      Generator.Step TypeCode).run.run generator = _
  rw [planned]
  rfl

/-- **The pointers into a record with parameters match its layout**, that is the struct has one
member for each field in their order, and each of them is set once, at the offset that the field has
in the layout, exactly if no padding of the layout has the name of a field.  A field that is a
record may have such a name.  The layout may come from any cache that is safe for the record. -/
theorem pointers_match_layout_iff {generator : Generator} {name : String}
    {fields : List (String × DataType)} {layout : Layout} {cache : LayoutCache}
    (safe : cache.SafeFor (.record name fields))
    (parametric : (DataType.record name fields).isPlain = false)
    (compiled : (runOn (generator.compiler.cachedLayout params (.record name fields)) cache).1 =
      .ok layout)
    (space : AddressSpace) :
    ∃ members measure body,
      (Generator.recordCode space (.record name fields)).run.run generator =
        (.ok ⟨.struct .complex ((generator.names space).typeName (.record name fields)) members,
          [measure, deserializeFunction (generator.names space) (.record name fields) body]⟩,
          generator) ∧
      ((layout.fields.filter fun place => !place.content.isPadding).map (·.name) =
        fields.map (·.1)) ∧
      ((members.map (·.name) = fields.map (·.1) ∧
        assigned (Stride.width? (generator.names space) generator.compiler.packing
          (.record name fields) params) 0 body =
            some ((layout.fields.filter fun place => !place.content.isPadding).map
              fun place => (place.name, place.offset))) ↔
        ∀ place ∈ layout.fields, place.content.isPadding = true →
          place.name ∉ fields.map (·.1)) := by
  have buildable := safe.buildable
  rw [Compiler.runOn_cachedLayout safe] at compiled
  obtain ⟨required, checked, placed⟩ := Compiler.layout_eq_ok_iff.1 compiled
  obtain ⟨parts, all, -, rfl⟩ := Layout.place_record_eq_ok_iff.1 placed
  obtain ⟨-, -, -, -, nodup, -⟩ := DataType.ofFields_eq_ok_iff.1 buildable.ofFields_eq_ok
  have agree := Params.AgreeOn.of_requiredBy checked
  have fit := SizePlan.fieldTerms_fit buildable.of_mem_fields (fun _ => agree.field buildable) all
  have values := names_of_placeFields all 0
  have each : ∀ place ∈ Layout.placeFields 0 parts, place.content.isPadding = false →
      isDeclared (.record name fields) place.name = true := by
    intro place mem value
    rw [isDeclared_iff nodup, ← values]
    exact List.mem_map_of_mem (List.mem_filter.2 ⟨mem, by rw [value, Bool.not_false]⟩)
  refine ⟨_, _, _, recordCode_eq parametric (SizePlan.ofType_of_parametric parametric), values, ?_⟩
  rw [memberNames_of_fits fit 0, assigned_of_fits nodup fit]
  constructor
  · -- Padding with the name of a field would be one member too many.
    rintro ⟨members, -⟩ place mem padded among
    have as_many := congrArg List.length (members.trans values.symm)
    rw [List.length_map, List.length_map] at as_many
    have apart := apart_of_length_eq each as_many place mem padded
    rw [(isDeclared_iff nodup).2 among] at apart
    cases apart
  · intro apart
    have hidden : ∀ place ∈ Layout.placeFields 0 parts, place.content.isPadding = true →
        isDeclared (.record name fields) place.name = false := by
      intro place mem padded
      rw [← Bool.not_eq_true, isDeclared_iff nodup]
      exact apart place mem padded
    rw [filter_declared_eq each hidden]
    exact ⟨values, rfl⟩

/-! ### A panel of cells

Its position is followed by padding, and by an inset that may be called like the padding. -/

/-- The distance of the cells from the left border. -/
def insetType : DataType := .record "Inset" [("left", .scalar .int32)]

/-- A panel with its position, its inset under the given name and its cells. -/
def panelFields (inset : String) : List (String × DataType) :=
  [("x", .scalar .float32), ("y", .scalar .float32), ("z", .scalar .float32), (inset, insetType),
    ("cells", .array "Cells" (.record "Cell" [("index", .scalar .int32)]))]

/-- The document that declares a panel. -/
def panelSchema (inset : String) : Schema where
  types := [
    .record "Inset" [⟨"left", "int32", none⟩],
    .record "Cell" [⟨"index", "int32", none⟩],
    .array "Cells" "Cell",
    .record "Panel" [⟨"x", "float32", none⟩, ⟨"y", "float32", none⟩, ⟨"z", "float32", none⟩,
      ⟨inset, "Inset", none⟩, ⟨"cells", "Cells", none⟩]]

/-- The types of that document. -/
def panelRegistry (inset : String) : Registry where
  types := [insetType, .record "Cell" [("index", .scalar .int32)],
    .array "Cells" (.record "Cell" [("index", .scalar .int32)]),
    .record "Panel" (panelFields inset)]

/-- Room for one cell. -/
def panelParams : Params := .ofList [("cells_capacity", 1)]

/-- A panel in bytes. -/
def panelLayout (inset : String) : Layout :=
  .record "Panel" [("x", .scalar .float32), ("y", .scalar .float32), ("z", .scalar .float32),
    ("padding", .padding .float32), (inset, .record "Inset" [("left", .scalar .int32)]),
    ("cells", .array "Cells" 1 (.record "Cell" [("index", .scalar .int32)]))]

/-- A generator at the start. -/
def panelGenerator : Generator := .start (.mk .short "" "" true) (.mk .aligned 5000)

/-- The empty cache is safe for a panel of a document. -/
theorem safeFor_panel {inset : String}
    (resolved : (panelSchema inset).toRegistry = .ok (panelRegistry inset)) :
    LayoutCache.empty.SafeFor (.record "Panel" (panelFields inset)) :=
  (LayoutCache.usedFor_empty _).safeFor resolved rfl

/-- An inset of its own name has one member, which is set at the offset behind the padding. -/
theorem pointers_match_layout_iff_panel :
    LayoutCache.empty.SafeFor (.record "Panel" (panelFields "inset")) ∧
      (DataType.record "Panel" (panelFields "inset")).isPlain = false ∧
      (runOn (panelGenerator.compiler.cachedLayout panelParams
        (.record "Panel" (panelFields "inset"))) .empty).1 = .ok (panelLayout "inset") ∧
      ∃ members measure body,
        (Generator.recordCode .globalMemory (.record "Panel" (panelFields "inset"))).run.run
            panelGenerator =
          (.ok ⟨.struct .complex "panel_gt" members, [measure,
            deserializeFunction (panelGenerator.names .globalMemory)
              (.record "Panel" (panelFields "inset")) body]⟩, panelGenerator) ∧
        members.map (·.name) = ["x", "y", "z", "inset", "cells"] ∧
        assigned (Stride.width? (panelGenerator.names .globalMemory) .aligned
          (.record "Panel" (panelFields "inset")) panelParams) 0 body =
            some [("x", 0), ("y", 4), ("z", 8), ("inset", 16), ("cells", 20)] := by
  have safe := @safeFor_panel "inset" rfl
  have compiled : (runOn (panelGenerator.compiler.cachedLayout panelParams
      (.record "Panel" (panelFields "inset"))) .empty).1 = .ok (panelLayout "inset") :=
    (Compiler.runOn_cachedLayout safe).trans rfl
  obtain ⟨members, measure, body, emitted, -, pointers⟩ :=
    pointers_match_layout_iff safe rfl compiled .globalMemory
  obtain ⟨named, set⟩ := pointers.2 (by decide)
  exact ⟨safe, rfl, compiled, members, measure, body, emitted, named, set⟩

/-- An inset that is called like the padding has two members of one name, and it is set twice, first
at the offset of the padding and then at its own. -/
theorem doubled_pointers_panel :
    LayoutCache.empty.SafeFor (.record "Panel" (panelFields "padding")) ∧
      (runOn (panelGenerator.compiler.cachedLayout panelParams
        (.record "Panel" (panelFields "padding"))) .empty).1 = .ok (panelLayout "padding") ∧
      ∃ members measure body,
        (Generator.recordCode .globalMemory (.record "Panel" (panelFields "padding"))).run.run
            panelGenerator =
          (.ok ⟨.struct .complex "panel_gt" members, [measure,
            deserializeFunction (panelGenerator.names .globalMemory)
              (.record "Panel" (panelFields "padding")) body]⟩, panelGenerator) ∧
        members.map (·.name) = ["x", "y", "z", "padding", "padding", "cells"] ∧
        assigned (Stride.width? (panelGenerator.names .globalMemory) .aligned
          (.record "Panel" (panelFields "padding")) panelParams) 0 body =
            some [("x", 0), ("y", 4), ("z", 8), ("padding", 12), ("padding", 16), ("cells", 20)] :=
  have safe := @safeFor_panel "padding" rfl
  ⟨safe, (Compiler.runOn_cachedLayout safe).trans rfl, _, _, _, rfl, rfl, rfl⟩

end DeviceBlob.Code
