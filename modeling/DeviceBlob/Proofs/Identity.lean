import DeviceBlob.Layout.Cache
import DeviceBlob.LinkedList
import DeviceBlob.Proofs.Buildable
import DeviceBlob.Proofs.Code.Visit
import DeviceBlob.Proofs.Signature

/-!
# What tells types apart

A cache finds a layout, and a generator a type that is done, by a name and a fingerprint.  Types of
one name can be taken for one another in two ways: they are spelled alike, or their signatures are
different and the hashes of these `Coincide` (`fingerprint_eq_iff`).

Types with labels and names of fields that contain no text of another one are `Separate`, and they
are spelled alike only if they have the same labels or fields.  With parts of this kind they are
`Unmixed`; then different types have the same fingerprint only where hashes coincide, their own or
those of parts at the same place (`eq_or_coincideWithin`).
-/

namespace DeviceBlob

namespace DataType

/-! ### Types that are told apart -/

/-- No label, and no name of a field, contains the text of another one. -/
def Separate : DataType → Prop
  | enum type => ∀ entry ∈ type.labels.entries, Text.Unsplit LabelHalves entry
  | record _ fields => ∀ field ∈ fieldFingerprints fields, Text.Unsplit FieldHalves field
  | _ => True

mutual

/-- The type and its parts are separate, and the names of the parts contain no opening brace. -/
def Unmixed : DataType → Prop
  | scalar _ => True
  | enum type => ∀ entry ∈ type.labels.entries, Text.Unsplit LabelHalves entry
  | record _ fields => FieldsUnmixed fields
  | array _ element => '\x7b' ∉ element.name.toList ∧ Unmixed element

/-- No name of a field contains the text of another one, and their types are unmixed and have names
without an opening brace. -/
def FieldsUnmixed : List (String × DataType) → Prop
  | [] => True
  | (name, type) :: rest => Text.Unsplit FieldHalves (name, type.fingerprint) ∧
    '\x7b' ∉ type.name.toList ∧ Unmixed type ∧ FieldsUnmixed rest

end

/-- The hashes of two different signatures are the same. -/
def Coincide (type other : DataType) : Prop :=
  type.signature ≠ other.signature ∧ type.fingerprint = other.fingerprint

/-- The hashes of different signatures are the same for two types, or for parts that stand at the
same place in them. -/
inductive CoincideWithin : DataType → DataType → Prop
  | here {type other : DataType} (coincide : Coincide type other) : CoincideWithin type other
  | field {name name' field field' : String} {fields others : List (String × DataType)}
    {part part' : DataType} {i : Nat} (here : fields[i]? = some (field, part))
    (there : others[i]? = some (field', part')) (within : CoincideWithin part part') :
    CoincideWithin (record name fields) (record name' others)
  | element {name name' : String} {part part' : DataType} (within : CoincideWithin part part') :
    CoincideWithin (array name part) (array name' part')

section Unmixed

variable {type other : DataType}

/-- Types of one outline are spelled alike. -/
theorem SameOutline.spelledAlike (same : type.SameOutline other) : type.SpelledAlike other := by
  cases type <;> cases other <;> simp only [SameOutline, SpelledAlike] at same ⊢ <;>
    first | exact same | rw [same]; exact .refl _

/-- Where no name imitates a signature, no text of a field falls apart in another way. -/
theorem FieldsUnmixed.unsplit : ∀ {fields : List (String × DataType)}, FieldsUnmixed fields →
    ∀ field ∈ fieldFingerprints fields, Text.Unsplit FieldHalves field
  | [], _, _, mem => absurd mem List.not_mem_nil
  | (_, _) :: _, ⟨unsplit, _, _, below⟩, field, mem => by
    rcases List.mem_cons.1 mem with rfl | mem
    · exact unsplit
    · exact below.unsplit field mem

/-- Where no name imitates a signature, the texts of the fields are separate. -/
theorem Unmixed.separate (unmixed : type.Unmixed) : type.Separate := by
  cases type with
  | enum type => exact unmixed
  | record name fields => exact FieldsUnmixed.unsplit unmixed
  | _ => trivial

/-- Separate types are spelled alike only if they have the same outline. -/
theorem spelledAlike_iff (separate : type.Separate) (separate' : other.Separate) :
    type.SpelledAlike other ↔ type.SameOutline other := by
  refine ⟨fun alike => ?_, SameOutline.spelledAlike⟩
  cases type with
  | scalar kind => cases other <;> exact alike
  | enum type =>
    cases other with
    | enum other => exact SortedMap.ext (spelling_labels.eq_of_alike separate separate' alike)
    | _ => exact alike
  | record name fields =>
    cases other with
    | record name' others => exact spelling_fields.eq_of_alike separate separate' alike
    | _ => exact alike
  | array name element => cases other <;> exact alike

/-- Types with the same fingerprint have the same name unless the hashes of their signatures
coincide. -/
theorem name_eq_or_coincide (free : '\x7b' ∉ type.name.toList) (free' : '\x7b' ∉ other.name.toList)
    (same : type.fingerprint = other.fingerprint) :
    type.name = other.name ∨ Coincide type other := by
  by_cases text : type.signature = other.signature
  · exact Or.inl (name_eq_of_signature free free' text)
  · exact Or.inr ⟨text, same⟩

end Unmixed

mutual

/-- Only the hashes of different signatures can be the reason that different types of one name have
the same fingerprint. -/
theorem eq_or_coincideWithin : ∀ {type other : DataType}, type.Unmixed → other.Unmixed →
    type.name = other.name → type.fingerprint = other.fingerprint →
      type = other ∨ CoincideWithin type other
  | type, other, unmixed, unmixed', named, same => by
    by_cases text : type.signature = other.signature
    · have alike := (signature_eq_iff named).1 text
      have outline := (spelledAlike_iff unmixed.separate unmixed'.separate).1 alike
      cases type with
      | scalar kind =>
        cases other with
        | scalar kind' => exact Or.inl (congrArg scalar outline)
        | _ => exact outline.elim
      | enum type =>
        cases other with
        | enum other => exact Or.inl (congrArg enum (EnumType.eq_of_labels named outline))
        | _ => exact outline.elim
      | record name fields =>
        cases other with
        | record name' others =>
          obtain rfl : name = name' := named
          rcases fields_eq_or_coincideWithin unmixed unmixed' outline with
            rfl | ⟨i, field, field', here, there, within⟩
          · exact Or.inl rfl
          · exact Or.inr (.field here there within)
        | _ => exact outline.elim
      | array name element =>
        cases other with
        | array name' other =>
          obtain rfl : name = name' := named
          rcases name_eq_or_coincide unmixed.1 unmixed'.1 outline with part | coincide
          · rcases eq_or_coincideWithin unmixed.2 unmixed'.2 part outline with rfl | within
            · exact Or.inl rfl
            · exact Or.inr (.element within)
          · exact Or.inr (.element (.here coincide))
        | _ => exact outline.elim
    · exact Or.inr (.here ⟨text, same⟩)

/-- The same for the fields of a record. -/
theorem fields_eq_or_coincideWithin : ∀ {fields others : List (String × DataType)},
    FieldsUnmixed fields → FieldsUnmixed others →
      fieldFingerprints fields = fieldFingerprints others →
        fields = others ∨ ∃ (i : Nat) (field field' : String × DataType),
          fields[i]? = some field ∧ others[i]? = some field' ∧ CoincideWithin field.2 field'.2
  | [], [], _, _, _ => Or.inl rfl
  | [], _ :: _, _, _, same => by simp [fieldFingerprints] at same
  | _ :: _, [], _, _, same => by simp [fieldFingerprints] at same
  | (name, type) :: rest, (name', other) :: others, ⟨_, free, unmixed, below⟩,
      ⟨_, free', unmixed', below'⟩, same => by
    simp only [fieldFingerprints, List.cons.injEq, Prod.mk.injEq] at same
    obtain ⟨⟨rfl, here⟩, behind⟩ := same
    rcases name_eq_or_coincide free free' here with named | coincide
    · rcases eq_or_coincideWithin unmixed unmixed' named here with rfl | within
      · rcases fields_eq_or_coincideWithin below below' behind with rfl | ⟨i, field, field', found⟩
        · exact Or.inl rfl
        · exact Or.inr ⟨i + 1, field, field', found⟩
      · exact Or.inr ⟨0, _, _, rfl, rfl, within⟩
    · exact Or.inr ⟨0, _, _, rfl, rfl, .here coincide⟩

end

/-! ### Keys -/

section Keys

variable {type other : DataType}

/-- Types of one name have the same fingerprint if they are spelled alike, or else if the hashes of
their signatures coincide. -/
theorem fingerprint_eq_iff (named : type.name = other.name) :
    type.fingerprint = other.fingerprint ↔ type.SpelledAlike other ∨ Coincide type other := by
  rw [← signature_eq_iff named]
  constructor
  · intro same
    by_cases text : type.signature = other.signature
    · exact Or.inl text
    · exact Or.inr ⟨text, same⟩
  · rintro (text | coincide)
    · rw [fingerprint_eq, fingerprint_eq, text]
    · exact coincide.2

/-- Two types of one name share the key of a cached layout when they share a fingerprint. -/
theorem key_eq_iff (compiler : Compiler) (required : Params) (named : type.name = other.name) :
    compiler.key type required = compiler.key other required ↔
      type.fingerprint = other.fingerprint := by
  simp [Compiler.key, named]

/-- Two types of one name are visited as one when they share a fingerprint. -/
theorem visit_eq_iff (space : AddressSpace) (named : type.name = other.name) :
    Code.Visit.of space type = Code.Visit.of space other ↔
      type.fingerprint = other.fingerprint := by
  simp [Code.Visit.of, named]

/-- A layout is found, and a type is passed over, by the hash of the type's signature.  Types of one
name have the same signature exactly if they are spelled alike, so they are taken for one another if
they are, or if the hashes of different signatures coincide.  Types that are separate are spelled
alike only if they have the same labels, or the same fields with the same fingerprints; and if their
parts are so as well, then nothing but coinciding hashes can make different types look the same. -/
theorem same_identity_iff (named : type.name = other.name) :
    type.fingerprint = .ofText type.signature ∧
      (type.signature = other.signature ↔ type.SpelledAlike other) ∧
      (∀ (compiler : Compiler) (required : Params),
        compiler.key type required = compiler.key other required ↔
          type.SpelledAlike other ∨ Coincide type other) ∧
      (∀ space, Code.Visit.of space type = Code.Visit.of space other ↔
        type.SpelledAlike other ∨ Coincide type other) ∧
      (type.Separate → other.Separate →
        (type.signature = other.signature ↔ type.SameOutline other)) ∧
      (type.Unmixed → other.Unmixed → type.fingerprint = other.fingerprint →
        type = other ∨ CoincideWithin type other) := by
  refine ⟨fingerprint_eq type, signature_eq_iff named, ?_, ?_, ?_, ?_⟩
  · intro compiler required
    rw [key_eq_iff compiler required named, fingerprint_eq_iff named]
  · intro space
    rw [visit_eq_iff space named, fingerprint_eq_iff named]
  · intro separate separate'
    rw [signature_eq_iff named, spelledAlike_iff separate separate']
  · intro unmixed unmixed' same
    exact eq_or_coincideWithin unmixed unmixed' named same

end Keys

/-! ### Heads of lists and modes of devices -/

/-- How the type of a 32-bit number stands in signatures. -/
def wordHex : String := (scalar .int32).fingerprint.hex

/-- The name of a field that contains the texts of two others. -/
def mixedName : String :=
  "first" ++ ":" ++ wordHex ++ "," ++ ("last" ++ ":" ++ wordHex ++ "," ++ "count")

/-- A head with one field instead of three. -/
def mixedHead : DataType := .record "ListHead" [(mixedName, .scalar .int32)]

/-- A head of which one field has another name. -/
def renamedHead : DataType :=
  .record "ListHead" (["first", "last", "length"].map fun name => (name, .scalar .int32))

/-- The modes of a device. -/
def modes : EnumType where
  name := "Mode"
  labels := ⟨[(1, "idle"), (2, "busy")], by decide⟩
  ordinal_ne_zero := by decide
  label_declarable := by decide
  labels_nodup := by decide

/-- Modes with one label that contains the text of another. -/
def mixedModes : EnumType where
  name := "Mode"
  labels := ⟨[(1, "idle,2=busy")], by decide⟩
  ordinal_ne_zero := by decide
  label_declarable := by decide
  labels_nodup := by decide

/-- Modes of which one has another label. -/
def renamedModes : EnumType where
  name := "Mode"
  labels := ⟨[(1, "idle"), (2, "paused")], by decide⟩
  ordinal_ne_zero := by decide
  label_declarable := by decide
  labels_nodup := by decide

/-- The record with a signature for a field name is spelled like the head of a list. -/
theorem spelledAlike_mixedHead : ListHead.type.SpelledAlike mixedHead := by
  have first : Text.Split FieldHalves (fieldFingerprints [(mixedName, scalar .int32)])
      [("first", (scalar .int32).fingerprint),
        ("last" ++ ":" ++ wordHex ++ "," ++ "count", (scalar .int32).fingerprint)] := .here rfl []
  have second : Text.Split FieldHalves
      [("first", (scalar .int32).fingerprint),
        ("last" ++ ":" ++ wordHex ++ "," ++ "count", (scalar .int32).fingerprint)]
      (fieldFingerprints (ListHead.fieldNames.map fun name => (name, scalar .int32))) :=
    .behind _ (.here rfl [])
  exact ⟨_, .refl, .tail (.single first) second⟩

/-- A record of numbers is unmixed if the names of its fields have no colon. -/
theorem unmixed_of_words {name : String} {words : List String}
    (free : ∀ word ∈ words, ':' ∉ word.toList) :
    Unmixed (.record name (words.map fun word => (word, .scalar .int32))) := by
  induction words with
  | nil => trivial
  | cons word rest ih =>
    obtain ⟨here, behind⟩ := List.forall_mem_cons.1 free
    exact ⟨unsplit_field here, by decide, trivial, ih behind⟩

/-- A head with one field is taken for the head of a list.  A head of which one field has another
name is not, unless hashes coincide, and other modes have another signature. -/
theorem same_identity_iff_head :
    (ListHead.type.name = mixedHead.name ∧
      ∀ compiler : Compiler, compiler.key ListHead.type ∅ = compiler.key mixedHead ∅) ∧
    (ListHead.type.name = renamedHead.name ∧ ListHead.type.signature ≠ renamedHead.signature ∧
      (ListHead.type.fingerprint = renamedHead.fingerprint →
        CoincideWithin ListHead.type renamedHead)) ∧
    (enum modes).name = (enum renamedModes).name ∧
      (enum modes).signature ≠ (enum renamedModes).signature := by
  have mixed : ListHead.type.name = mixedHead.name := rfl
  have renamed : ListHead.type.name = renamedHead.name := rfl
  have mode : (enum modes).name = (enum renamedModes).name := rfl
  have head : ListHead.type.Unmixed := unmixed_of_words (by decide)
  have head' : renamedHead.Unmixed := unmixed_of_words (by decide)
  have differ : ¬ListHead.type.SameOutline renamedHead := by
    simp [SameOutline, ListHead.type, renamedHead, ListHead.fieldNames, fieldFingerprints]
  obtain ⟨-, -, keys, -⟩ := same_identity_iff mixed
  obtain ⟨-, -, -, -, told, only⟩ := same_identity_iff renamed
  obtain ⟨-, -, -, -, modesTold, -⟩ := same_identity_iff mode
  refine ⟨⟨mixed, ?_⟩, ⟨renamed, ?_, ?_⟩, mode, ?_⟩
  · intro compiler
    exact (keys compiler ∅).2 (Or.inl spelledAlike_mixedHead)
  · intro same
    exact differ ((told head.separate head'.separate).1 same)
  · intro same
    refine (only head head' same).resolve_left ?_
    intro equal
    rw [← equal] at differ
    exact differ rfl
  · intro same
    have words : ∀ entry ∈ modes.labels.entries, ',' ∉ entry.2.toList := by decide
    have words' : ∀ entry ∈ renamedModes.labels.entries, ',' ∉ entry.2.toList := by decide
    have labels : modes.labels = renamedModes.labels :=
      (modesTold (fun entry mem => unsplit_label (words entry mem))
        (fun entry mem => unsplit_label (words' entry mem))).1 same
    exact absurd labels (by decide)

/-- Two enums of one name with different labels have the same signature, and so have two records of
one name with different fields; the layouts of the records are of different sizes, but they are
found under the same key. -/
theorem mixed_not_told_apart :
    (EnumType.ofLabels "Mode" [(1, "idle"), (2, "busy")] = .ok modes ∧
      EnumType.ofLabels "Mode" [(1, "idle,2=busy")] = .ok mixedModes ∧
      modes.labels ≠ mixedModes.labels ∧
      (enum modes).signature = (enum mixedModes).signature) ∧
    (ofFields "ListHead" (ListHead.fieldNames.map fun name => (name, .scalar .int32)) =
        .ok ListHead.type ∧
      ofFields "ListHead" [(mixedName, .scalar .int32)] = .ok mixedHead ∧
      ListHead.type.signature = mixedHead.signature) ∧
    (Compiler.plainLayout {} ListHead.type).map Layout.size = .ok 12 ∧
      (Compiler.plainLayout {} mixedHead).map Layout.size = .ok 4 ∧
      Compiler.key {} ListHead.type ∅ = Compiler.key {} mixedHead ∅ := by
  have mode : (enum modes).name = (enum mixedModes).name := rfl
  have split : Text.Split LabelHalves mixedModes.labels.entries modes.labels.entries := .here rfl []
  have labels := (signature_eq_iff mode).2 ⟨_, .refl, .single split⟩
  have head : ListHead.type.name = mixedHead.name := rfl
  have fields := (signature_eq_iff head).2 spelledAlike_mixedHead
  refine ⟨⟨rfl, rfl, by decide, labels⟩, ⟨rfl, ?_, fields⟩, rfl, rfl, ?_⟩
  · refine ofFields_eq_ok_iff.2 ⟨rfl, by decide, by simp, ?_, by simp, .nil⟩
    simp [mixedName]
  · rw [key_eq_iff {} ∅ head, fingerprint_eq, fingerprint_eq, fields]

end DataType

end DeviceBlob
