import DeviceBlob.Proofs.Json.Pretty
import DeviceBlob.Proofs.Outcome
import DeviceBlob.Proofs.SortedMap
import DeviceBlob.Schema.Document

/-!
# Schema documents are read back from their text

Whatever a schema document declares, its JSON is read as that document again (`ofJson?_toJson`), one
lemma for each level: the fields of a record, the types, the document.  Names and labels may be any
text.  Only a number of components is bounded: it has to fit a word (`Fits`), and reading never makes
a greater one (`fits_of_ofJson?`).  The JSON of a document has no floating-point numbers and is five
levels deep (`isPlain_toJson`).

How JSON becomes text is left open.  All that is needed is that the text of a document's JSON stands
for that JSON: then the document is read back from its text exactly if its numbers fit
(`ofTextBy_toTextBy_eq_ok_iff`).  The printer and the reader of this library give that
(`parseKeeping?_toText`).
-/

namespace DeviceBlob

/-! ### Fields -/

namespace FieldDecl

/-- The number of components, if there is one, fits a word of 64 bits. -/
def Fits (field : FieldDecl) : Prop := ∀ count ∈ field.components, count < 18446744073709551616

/-- A number of components that is a size is read back. -/
theorem componentsOfJson?_integer {count : Nat} (fits : count < 18446744073709551616) :
    componentsOfJson? (some (.integer count)) = some (some count) := by
  have range : (0 : Int) ≤ count ∧ (count : Int) < 18446744073709551616 := by omega
  have read : (Json.integer count).natural? = some count := by
    rw [Json.natural?, if_pos range]
    rfl
  rw [componentsOfJson?, read]
  · rfl
  · simp

/-- No greater number of components is ever read. -/
theorem lt_of_componentsOfJson? {value : Option Json} {components : Option Nat} {count : Nat}
    (read : componentsOfJson? value = some components) (mem : count ∈ components) :
    count < 18446744073709551616 := by
  unfold componentsOfJson? at read
  split at read
  · cases read
    cases mem
  · cases read
    cases mem
  · obtain ⟨n, natural, rfl⟩ := Option.map_eq_some_iff.1 read
    cases mem
    unfold Json.natural? at natural
    split at natural
    · split at natural
      · cases natural
        omega
      · cases natural
    · cases natural

/-- A declaration is read from its members, wherever they stand. -/
theorem ofJson?_object {members : List (String × Json)} {name type : String} {value : Option Json}
    {components : Option Nat} (named : Json.member? members "name" = some (.string name))
    (typed : Json.member? members "type" = some (.string type))
    (counted : Json.optionalMember? members "components" = some value)
    (count : componentsOfJson? value = some components) :
    ofJson? (.object members) = some ⟨name, type, components⟩ := by
  simp only [ofJson?, named, typed, counted, count, Json.string?, Option.bind_eq_bind,
    Option.bind_some, Option.pure_def]

/-- A field is read back from its JSON. -/
theorem ofJson?_toJson {field : FieldDecl} (fits : field.Fits) :
    ofJson? field.toJson = some field := by
  obtain ⟨name, type, components⟩ := field
  cases components with
  | none => exact ofJson?_object rfl rfl rfl rfl
  | some count => exact ofJson?_object rfl rfl rfl (componentsOfJson?_integer (fits count rfl))

/-- What is read as a field has a number of components that is a size. -/
theorem fits_of_ofJson? {json : Json} {field : FieldDecl} (read : ofJson? json = some field) :
    field.Fits := by
  have counted : ∃ value, componentsOfJson? value = some field.components := by
    unfold ofJson? at read
    split at read
    case h_4 => cases read
    all_goals
      simp only [Option.bind_eq_bind, Option.bind_eq_some_iff, Option.pure_def,
        Option.some.injEq] at read
    · obtain ⟨_, _, name, _, _, _, type, _, value, _, components, counted, rfl⟩ := read
      exact ⟨value, counted⟩
    · obtain ⟨name, _, type, _, rfl⟩ := read
      exact ⟨none, rfl⟩
    · obtain ⟨name, _, type, _, components, counted, rfl⟩ := read
      exact ⟨_, counted⟩
  obtain ⟨value, counted⟩ := counted
  exact fun count mem => lt_of_componentsOfJson? counted mem

/-- A field is written in plain values. -/
theorem isPlain_toJson {field : FieldDecl} (fits : field.Fits) (depth : Nat) :
    Json.IsPlain (depth + 1) field.toJson := by
  refine .object fun member mem => ?_
  rcases List.mem_append.1 mem with text | number
  · simp only [List.mem_cons, List.not_mem_nil, or_false] at text
    rcases text with rfl | rfl
    · exact .string _
    · exact .string _
  · split at number
    · next count some =>
      obtain rfl := List.mem_singleton.1 number
      have small := fits count some
      exact .integer (by omega) (by omega)
    · cases number

end FieldDecl

/-! ### Types -/

namespace TypeDecl

/-- The numbers of components in the declaration fit words of 64 bits. -/
def Fits : TypeDecl → Prop
  | record _ fields => ∀ field ∈ fields, field.Fits
  | _ => True

/-- The labels of an enum are read back in their order. -/
theorem labelsOfJson?_object (labels : SortedMap String String) :
    labelsOfJson? (.object (labels.entries.map fun (ordinal, label) => (ordinal, .string label))) =
      some labels := by
  rw [labelsOfJson?, Json.object?, Option.bind_eq_bind, Option.bind_some, mapM_map_eq_some]
  · simp
  · exact fun entry _ => rfl

/-- A type is read back from its JSON. -/
theorem ofJson?_toJson {decl : TypeDecl} (fits : decl.Fits) : ofJson? decl.toJson = some decl := by
  cases decl with
  | enum name labels =>
    have content : ofParts? "enum" (.string name) (.object (labels.entries.map
        fun (ordinal, label) => (ordinal, .string label))) = some (enum name labels) := by
      simp [ofParts?, Json.string?, labelsOfJson?_object]
    exact content
  | record name fields =>
    have each : (fields.map FieldDecl.toJson).mapM FieldDecl.ofJson? = some fields :=
      mapM_map_eq_some fun field mem => FieldDecl.ofJson?_toJson (fits field mem)
    have content : ofParts? "record" (.string name) (.array (fields.map FieldDecl.toJson)) =
        some (record name fields) := by
      simp [ofParts?, Json.string?, Json.array?, each]
    exact content
  | array name element => rfl

/-- What is read from the two parts of a declaration fits. -/
theorem fits_of_ofParts? {kind : String} {name content : Json} {decl : TypeDecl}
    (read : ofParts? kind name content = some decl) : decl.Fits := by
  unfold ofParts? at read
  simp only [Option.bind_eq_bind, Option.bind_eq_some_iff, Option.pure_def] at read
  obtain ⟨name, -, parts⟩ := read
  split at parts
  case h_4 => cases parts
  all_goals simp only [Option.bind_eq_some_iff, Option.some.injEq] at parts
  · obtain ⟨labels, -, rfl⟩ := parts
    trivial
  · obtain ⟨items, -, fields, each, rfl⟩ := parts
    intro field mem
    obtain ⟨item, -, read⟩ := exists_of_mem_right (mapM_eq_some_iff.1 each) mem
    exact FieldDecl.fits_of_ofJson? read
  · obtain ⟨element, -, rfl⟩ := parts
    trivial

/-- What is read as a declaration fits. -/
theorem fits_of_ofJson? {json : Json} {decl : TypeDecl} (read : ofJson? json = some decl) :
    decl.Fits := by
  unfold ofJson? at read
  split at read
  case h_3 => cases read
  all_goals simp only [Option.bind_eq_bind, Option.bind_eq_some_iff] at read
  · obtain ⟨_, _, kind, _, _, _, content, _, name, _, parts⟩ := read
    exact fits_of_ofParts? parts
  · obtain ⟨kind, _, parts⟩ := read
    exact fits_of_ofParts? parts

/-- A declaration is one level deeper than its content. -/
theorem isPlain_parts {kind name key : String} {content : Json} {depth : Nat}
    (plain : Json.IsPlain depth content) : Json.IsPlain (depth + 1)
      (.object [("kind", .string kind), ("name", .string name), (key, content)]) := by
  refine .object ?_
  simp only [List.forall_mem_cons]
  exact ⟨.string _, .string _, plain, by simp⟩

/-- A declaration is written in plain values. -/
theorem isPlain_toJson {decl : TypeDecl} (fits : decl.Fits) (depth : Nat) :
    Json.IsPlain (depth + 3) decl.toJson := by
  cases decl with
  | enum name labels =>
    refine isPlain_parts (Json.IsPlain.object fun member mem => ?_)
    obtain ⟨entry, -, rfl⟩ := List.mem_map.1 mem
    exact .string _
  | record name fields =>
    refine isPlain_parts (Json.IsPlain.array fun item mem => ?_)
    obtain ⟨field, listed, rfl⟩ := List.mem_map.1 mem
    exact FieldDecl.isPlain_toJson (fits field listed) depth
  | array name element => exact isPlain_parts (.string element)

end TypeDecl

/-! ### Documents -/

namespace Schema

/-- All numbers of components in the document fit words of 64 bits. -/
def Fits (schema : Schema) : Prop := ∀ decl ∈ schema.types, decl.Fits

/-- A document is read back from its JSON. -/
theorem ofJson?_toJson {schema : Schema} (fits : schema.Fits) :
    ofJson? schema.toJson = some schema := by
  have each : (schema.types.map TypeDecl.toJson).mapM TypeDecl.ofJson? = some schema.types :=
    mapM_map_eq_some fun decl mem => TypeDecl.ofJson?_toJson (fits decl mem)
  simp [toJson, ofJson?, Json.member?, Json.optionalMember?, Json.array?, each]

/-- What is read as a schema fits. -/
theorem fits_of_ofJson? {json : Json} {schema : Schema} (read : ofJson? json = some schema) :
    schema.Fits := by
  have each : ∃ items : List Json, items.mapM TypeDecl.ofJson? = some schema.types := by
    unfold ofJson? at read
    split at read
    case h_3 => cases read
    all_goals
      simp only [Option.bind_eq_bind, Option.bind_eq_some_iff, Option.pure_def,
        Option.some.injEq] at read
    · obtain ⟨_, _, items, _, types, each, rfl⟩ := read
      exact ⟨items, each⟩
    · obtain ⟨items, _, types, each, rfl⟩ := read
      exact ⟨items, each⟩
  obtain ⟨items, each⟩ := each
  intro decl mem
  obtain ⟨item, -, read⟩ := exists_of_mem_right (mapM_eq_some_iff.1 each) mem
  exact TypeDecl.fits_of_ofJson? read

/-! ### Texts -/

/-- A text is accepted when it is read as a value, and the value as a schema. -/
theorem ofTextBy_eq_ok_iff {parse : String → Option Json} {text : String} {schema : Schema} :
    ofTextBy parse text = .ok schema ↔ (parse text).bind ofJson? = some schema := by
  unfold ofTextBy
  cases (parse text).bind ofJson? with
  | none => simp
  | some other => simp

/-- However JSON is read from a text, no document comes out of it that does not fit. -/
theorem fits_of_ofTextBy {parse : String → Option Json} {text : String} {schema : Schema}
    (read : ofTextBy parse text = .ok schema) : schema.Fits := by
  obtain ⟨json, -, made⟩ := Option.bind_eq_some_iff.1 (ofTextBy_eq_ok_iff.1 read)
  exact fits_of_ofJson? made

/-- A document that fits is read back wherever the text of its JSON stands for that JSON. -/
theorem ofTextBy_of_fits {parse : String → Option Json} {text : String} {schema : Schema}
    (parsed : parse text = some schema.toJson) (fits : schema.Fits) :
    ofTextBy parse text = .ok schema := by
  rw [ofTextBy_eq_ok_iff, parsed, Option.bind_some, ofJson?_toJson fits]

/-- **A document is read back from its text**, whatever it declares and whatever its names and
labels are, by any way to write JSON and to read it that gives the JSON of this document back.  Only
its numbers of components have to fit words of 64 bits. -/
theorem ofTextBy_toTextBy_eq_ok_iff {print : Json → String} {parse : String → Option Json}
    {schema : Schema} (parsed : parse (print schema.toJson) = some schema.toJson) :
    ofTextBy parse (schema.toTextBy print) = .ok schema ↔ schema.Fits :=
  ⟨fits_of_ofTextBy, ofTextBy_of_fits parsed⟩

/-- The text of a document stands for its JSON. -/
theorem parseKeeping?_toText {schema : Schema} (fits : schema.Fits) :
    Json.parseKeeping? ["types"] schema.toText = some schema.toJson := by
  refine Json.parseKeeping?_pretty (by simp) ?_
  simp only [List.forall_mem_singleton]
  refine Json.IsPlain.array fun item mem => ?_
  obtain ⟨decl, listed, rfl⟩ := List.mem_map.1 mem
  -- A document takes five of the 127 levels that the reader goes down.
  exact TypeDecl.isPlain_toJson (fits decl listed) 122

/-- The printer and the reader of this library are such a way, for each document that fits. -/
theorem ofText_toText_eq_ok_iff (schema : Schema) :
    ofText schema.toText = .ok schema ↔ schema.Fits :=
  ⟨fits_of_ofTextBy, fun fits => ofTextBy_of_fits (parseKeeping?_toText fits) fits⟩

/-- A document with a name and a label outside of ASCII, and with a vector. -/
def cafeSchema : Schema where
  types := [
    .enum "Größe" (.ofList [("1", "klein"), ("-2", "groß \"XL\"")]),
    .record "Café" [⟨"größe", "Größe", none⟩, ⟨"ort", "float32", some 3⟩],
    .array "Cafés" "Café"]

/-- That document is read back, by the printer and the reader of this library. -/
theorem ofTextBy_toTextBy_eq_ok_cafe :
    Json.parseKeeping? ["types"] (Json.pretty cafeSchema.toJson) = some cafeSchema.toJson ∧
      ofTextBy (Json.parseKeeping? ["types"]) (cafeSchema.toTextBy Json.pretty) =
        .ok cafeSchema := by
  have fits : cafeSchema.Fits := by
    simp [cafeSchema, Fits, TypeDecl.Fits, FieldDecl.Fits]
  have parsed : Json.parseKeeping? ["types"] (Json.pretty cafeSchema.toJson) =
      some cafeSchema.toJson := parseKeeping?_toText fits
  exact ⟨parsed, (ofTextBy_toTextBy_eq_ok_iff parsed).2 fits⟩

end Schema

end DeviceBlob
