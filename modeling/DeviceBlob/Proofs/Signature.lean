import DeviceBlob.DataType
import DeviceBlob.Proofs.Text.Decimal
import DeviceBlob.Proofs.Text.Entries
import DeviceBlob.Proofs.Text.Pieces

/-!
# Signatures

The fingerprint of a type is the hash of its signature (`fingerprint_eq`): the name of the type and
the texts of its labels, or of its fields with the fingerprints of their types.  Labels and names of
fields stand there as they are, whatever letters they have.  So a label may contain the end of its
own text and the front of the next one (`LabelHalves`), and the name of a field may contain the
whole text of the field before it (`FieldHalves`).

Nothing else can be mistaken in a signature: types of one name have the same one exactly if their
labels or fields can be taken apart in this way until they are the same (`signature_eq_iff`).
-/

namespace DeviceBlob

/-! ### Digits of a fingerprint -/

namespace Fingerprint

/-- The number that hexadecimal digits stand for. -/
def valueOf (digits : List Char) : Nat :=
  digits.foldl (fun value digit => 16 * value + "0123456789abcdef".toList.idxOf digit) 0

/-- A digit stands where its value says. -/
theorem idxOf_digitChar : ∀ d < 16, "0123456789abcdef".toList.idxOf (Nat.digitChar d) = d := by
  decide

/-- The digits of a number stand for the number. -/
theorem valueOf_toDigits (n : Nat) : valueOf (Nat.toDigits 16 n) = n := by
  induction n using Nat.strongRecOn with
  | ind n ih =>
    rw [Nat.toDigits_eq_if (by decide)]
    split
    · next small => simpa [valueOf] using idxOf_digitChar n small
    · next large =>
      have last := idxOf_digitChar (n % 16) (Nat.mod_lt n (by decide))
      have front := ih (n / 16) (by omega)
      rw [valueOf, List.foldl_append, ← valueOf, front]
      simp only [List.foldl_cons, List.foldl_nil, last]
      omega

/-- Zeros in front do not matter. -/
theorem valueOf_replicate_append (count : Nat) (digits : List Char) :
    valueOf (List.replicate count '0' ++ digits) = valueOf digits := by
  have zero : "0123456789abcdef".toList.idxOf '0' = 0 := by decide
  induction count with
  | zero => simp
  | succ count ih =>
    rw [List.replicate_succ, List.cons_append, valueOf, List.foldl_cons, zero]
    exact ih

/-- A fingerprint is written with zeros in front of its digits. -/
theorem toList_hex (hash : Fingerprint) : hash.hex.toList =
    List.replicate (8 - (Nat.toDigits 16 hash.toNat).length) '0' ++ Nat.toDigits 16 hash.toNat := by
  simp [hex]

/-- A fingerprint is written with eight letters. -/
theorem length_hex (hash : Fingerprint) : hash.hex.toList.length = 8 := by
  have short : (Nat.toDigits 16 hash.toNat).length ≤ 8 :=
    (Nat.length_toDigits_le_iff (by decide) (by decide)).2 hash.toNat_lt
  rw [toList_hex, List.length_append, List.length_replicate]
  omega

/-- Different fingerprints are written differently. -/
theorem hex_injective {hash other : Fingerprint} (same : hash.hex = other.hex) : hash = other := by
  have read := congrArg (fun text => valueOf text.toList) same
  simp only [toList_hex, valueOf_replicate_append, valueOf_toDigits] at read
  exact UInt32.toNat_inj.1 read

/-- No colon is in the text of a fingerprint. -/
theorem colon_not_mem_hex (hash : Fingerprint) : ':' ∉ hash.hex.toList := by
  have digits : ∀ n, ':' ∉ Nat.toDigits 16 n := by
    intro n
    induction n using Nat.strongRecOn with
    | ind n ih =>
      have other : ∀ d, ':' ≠ Nat.digitChar d := fun d => (Nat.digitChar_ne ':' (by decide)).symm
      rw [Nat.toDigits_eq_if (by decide)]
      split
      · simp [other]
      · simp [other, ih (n / 16) (by omega)]
  rw [toList_hex, List.mem_append, not_or]
  refine ⟨?_, digits _⟩
  intro mem
  exact absurd (List.eq_of_mem_replicate mem) (by decide)

end Fingerprint

/-- Kinds of numbers are told apart by their names. -/
theorem Scalar.eq_of_name {kind other : Scalar} (named : kind.name = other.name) :
    kind = other := by
  have found := ofName?_name kind
  rw [named, ofName?_name] at found
  exact (Option.some.inj found).symm

/-- Enums are the same if their names and their labels are. -/
theorem EnumType.eq_of_labels {type other : EnumType} (named : type.name = other.name)
    (same : type.labels = other.labels) : type = other := by
  cases type
  cases other
  cases named
  cases same
  rfl

namespace DataType

/-! ### Texts of labels and of fields -/

/-- What stands for a label in the signature of its enum. -/
def labelText (entry : Int32 × String) : String :=
  toString entry.1.toInt ++ "=" ++ entry.2 ++ ","

/-- What stands for a field in the signature of its record. -/
def fieldText (field : String × Fingerprint) : String :=
  field.1 ++ ":" ++ field.2.hex ++ ","

/-- A label contains the text of the next one. -/
def LabelHalves (whole first second : Int32 × String) : Prop :=
  whole = (first.1, first.2 ++ "," ++ toString second.1.toInt ++ "=" ++ second.2)

/-- The name of a field contains the text of the field before it. -/
def FieldHalves (whole first second : String × Fingerprint) : Prop :=
  whole = (first.1 ++ ":" ++ first.2.hex ++ "," ++ second.1, second.2)

/-- A label is written behind its ordinal, with a comma at the end. -/
theorem toList_labelText (entry : Int32 × String) : (labelText entry).toList =
    (toString entry.1.toInt).toList ++ '=' :: (entry.2.toList ++ [',']) := by
  simp [labelText]

/-- A field is written in front of the fingerprint of its type, with a comma at the end. -/
theorem toList_fieldText (field : String × Fingerprint) : (fieldText field).toList =
    field.1.toList ++ ':' :: (field.2.hex.toList ++ [',']) := by
  simp [fieldText]

/-- If what stands behind a label makes the text of a longer one, then the longer one contains the
text of the next label. -/
theorem exists_labelHalves {ordinal : Int32} {short long : String} {middle rest : List Char}
    {entries : List (Int32 × String)} (longer : long.toList = short.toList ++ middle)
    (same : ',' :: entries.flatMap (fun entry => (labelText entry).toList) =
      middle ++ ',' :: rest) :
    long = short ∨ ∃ second, LabelHalves (ordinal, long) (ordinal, short) second := by
  rcases middle with _ | ⟨comma, others⟩
  · exact Or.inl (String.toList_inj.1 (by simpa using longer))
  · rw [List.cons_append, List.cons.injEq] at same
    obtain ⟨rfl, same⟩ := same
    cases entries with
    | nil => simp at same
    | cons next later =>
      have ordinal : ',' ∉ (toString next.1.toInt).toList :=
        Text.not_mem_toString (by decide) (by decide) next.1.toInt
      have free : ',' ∉ (toString next.1.toInt).toList ++ ['='] := by
        simpa using ordinal
      obtain ⟨label, split⟩ : ∃ label,
          others = (toString next.1.toInt).toList ++ ['='] ++ label := by
        apply Text.exists_append_of_not_mem free
        simpa [toList_labelText] using same
      refine Or.inr ⟨(next.1, String.ofList label), ?_⟩
      simp [LabelHalves, ← String.toList_inj, longer, split]

/-- The text of labels is cut at equality signs behind numbers and at commas. -/
theorem spelling_labels : Text.Spelling (fun entry => (labelText entry).toList) LabelHalves where
  ne_nil entry := by simp [toList_labelText]
  text_eq := by
    rintro whole first second rfl
    simp [toList_labelText]
  compare := by
    rintro ⟨ordinal, label⟩ ⟨ordinal', label'⟩ entries others same
    -- The ordinals end at the first equals signs, and of the labels one goes on behind the other.
    rw [toList_labelText, toList_labelText] at same
    simp only [List.append_assoc, List.cons_append, List.nil_append] at same
    obtain ⟨ordinals, labels⟩ := Text.append_cons_inj
      (Text.not_mem_toString (by decide) (by decide) ordinal.toInt)
      (Text.not_mem_toString (by decide) (by decide) ordinal'.toInt) same
    obtain rfl : ordinal = ordinal' :=
      Int32.toInt_inj.1 (Text.toString_int_injective (String.toList_inj.1 ordinals))
    rcases List.append_eq_append_iff.1 labels with ⟨middle, longer, rest⟩ | ⟨middle, longer, rest⟩
    · rcases exists_labelHalves longer rest with rfl | halves
      · exact Or.inl rfl
      · exact Or.inr (Or.inr halves)
    · rcases exists_labelHalves longer rest with rfl | halves
      · exact Or.inl rfl
      · exact Or.inr (Or.inl halves)

/-- If what stands behind the name of a field makes the text of a longer name, then the longer one
contains the text of the field. -/
theorem exists_fieldHalves {short long : String} {hash other : Fingerprint}
    {middle rest rest' : List Char} (longer : long.toList = short.toList ++ middle)
    (same : ':' :: (hash.hex.toList ++ ',' :: rest) =
      middle ++ ':' :: (other.hex.toList ++ ',' :: rest')) :
    (long, other) = (short, hash) ∨
      ∃ second, FieldHalves (long, other) (short, hash) second := by
  rcases middle with _ | ⟨colon, others⟩
  · have named : long = short := String.toList_inj.1 (by simpa using longer)
    have hashes : hash.hex.toList = other.hex.toList := by
      refine (List.append_inj (List.cons.inj same).2 ?_).1
      rw [Fingerprint.length_hex, Fingerprint.length_hex]
    rw [named, Fingerprint.hex_injective (String.toList_inj.1 hashes)]
    exact Or.inl rfl
  · rw [List.cons_append, List.cons.injEq] at same
    obtain ⟨rfl, same⟩ := same
    have free : ':' ∉ hash.hex.toList ++ [','] := by
      simp [Fingerprint.colon_not_mem_hex]
    obtain ⟨name, split⟩ : ∃ name, others = hash.hex.toList ++ [','] ++ name := by
      apply Text.exists_append_of_not_mem free
      simpa using same
    refine Or.inr ⟨(String.ofList name, other), ?_⟩
    simp [FieldHalves, ← String.toList_inj, longer, split]

/-- The text of fields is cut at colons in front of fingerprints and at commas. -/
theorem spelling_fields : Text.Spelling (fun field => (fieldText field).toList) FieldHalves where
  ne_nil field := by simp [toList_fieldText]
  text_eq := by
    rintro whole first second rfl
    simp [toList_fieldText]
  compare := by
    rintro ⟨name, hash⟩ ⟨name', hash'⟩ fields others same
    -- Here the names come first, so one of them goes on where the other one ends.
    simp only [toList_fieldText, List.append_assoc, List.cons_append] at same
    rcases List.append_eq_append_iff.1 same with ⟨middle, longer, rest⟩ | ⟨middle, longer, rest⟩
    · rcases exists_fieldHalves longer rest with same | halves
      · exact Or.inl same.symm
      · exact Or.inr (Or.inr halves)
    · rcases exists_fieldHalves longer rest with same | halves
      · exact Or.inl same
      · exact Or.inr (Or.inl halves)

/-- A label without a comma contains no other one. -/
theorem unsplit_label {entry : Int32 × String} (free : ',' ∉ entry.2.toList) :
    Text.Unsplit LabelHalves entry := by
  rintro first second rfl
  simp at free

/-- The name of a field without a colon contains no other field. -/
theorem unsplit_field {field : String × Fingerprint} (free : ':' ∉ field.1.toList) :
    Text.Unsplit FieldHalves field := by
  rintro first second rfl
  simp at free

/-! ### Signatures -/

/-- What the fingerprint of a type is taken of. -/
def signature : DataType → String
  | scalar kind => "scalar " ++ kind.name
  | enum type => enumSignature type
  | record name fields => recordSignature name (fieldFingerprints fields)
  | array name element => arraySignature name element.fingerprint

/-- The fingerprint of a type is that of its signature. -/
theorem fingerprint_eq (type : DataType) : type.fingerprint = .ofText type.signature := by
  cases type <;> rfl

/-- The signature of an enum is made of its name and the texts of its labels. -/
theorem enumSignature_eq (type : EnumType) :
    enumSignature type = "enum " ++ type.name ++ "\x7b" ++
      String.join (type.labels.entries.map labelText) ++ "\x7d" := rfl

/-- The signature of a record is made of its name and the texts of its fields. -/
theorem recordSignature_eq (name : String) (fields : List (String × Fingerprint)) :
    recordSignature name fields =
      "record " ++ name ++ "\x7b" ++ String.join (fields.map fieldText) ++ "\x7d" := rfl

/-- The signature of an enum letter by letter. -/
theorem toList_enumSignature (type : EnumType) : (enumSignature type).toList =
    "enum ".toList ++ (type.name.toList ++ '\x7b' ::
      (type.labels.entries.flatMap (fun entry => (labelText entry).toList) ++ ['\x7d'])) := by
  simp [enumSignature_eq, String.toList_join, List.flatMap_map]

/-- The signature of a record letter by letter. -/
theorem toList_recordSignature (name : String) (fields : List (String × Fingerprint)) :
    (recordSignature name fields).toList = "record ".toList ++ (name.toList ++ '\x7b' ::
      (fields.flatMap (fun field => (fieldText field).toList) ++ ['\x7d'])) := by
  simp [recordSignature_eq, String.toList_join, List.flatMap_map]

/-- The signature of an array letter by letter. -/
theorem toList_arraySignature (name : String) (element : Fingerprint) :
    (arraySignature name element).toList =
      "array ".toList ++ (name.toList ++ '[' :: (element.hex.toList ++ [']'])) := by
  simp [arraySignature]

/-- The letter with which the signatures of a kind of types begin. -/
def letter : DataType → Char
  | scalar _ => 's'
  | enum _ => 'e'
  | record _ _ => 'r'
  | array _ _ => 'a'

/-- The first letter of a signature tells the kind of the type. -/
theorem head?_signature (type : DataType) : type.signature.toList.head? = some type.letter := by
  cases type with
  | scalar kind => simp [signature, letter]
  | enum type => simp [signature, letter, toList_enumSignature]
  | record name fields => simp [signature, letter, toList_recordSignature]
  | array name element => simp [signature, letter, toList_arraySignature]

/-- Types with one signature are of one kind. -/
theorem letter_eq_of_signature {type other : DataType} (same : type.signature = other.signature) :
    type.letter = other.letter := by
  have first := head?_signature type
  rw [same, head?_signature] at first
  exact (Option.some.inj first).symm

/-- The types are of one kind, and their labels, or the fields with the fingerprints of their types,
can be taken apart until they are the same. -/
def SpelledAlike : DataType → DataType → Prop
  | scalar kind, scalar other => kind = other
  | enum type, enum other => Text.Alike LabelHalves type.labels.entries other.labels.entries
  | record _ fields, record _ others =>
    Text.Alike FieldHalves (fieldFingerprints fields) (fieldFingerprints others)
  | array _ element, array _ other => element.fingerprint = other.fingerprint
  | _, _ => False

/-- The types are of one kind and have the same labels, or the same fields with the same
fingerprints of their types. -/
def SameOutline : DataType → DataType → Prop
  | scalar kind, scalar other => kind = other
  | enum type, enum other => type.labels = other.labels
  | record _ fields, record _ others => fieldFingerprints fields = fieldFingerprints others
  | array _ element, array _ other => element.fingerprint = other.fingerprint
  | _, _ => False

section Signature

variable {type other : DataType}

/-- So are types that are spelled alike. -/
theorem SpelledAlike.letter_eq (alike : type.SpelledAlike other) : type.letter = other.letter := by
  cases type <;> cases other <;> first | rfl | exact absurd alike id

/-- Different kinds of types have different signatures. -/
theorem signature_eq_iff_of_letter (differ : type.letter ≠ other.letter) :
    type.signature = other.signature ↔ type.SpelledAlike other := by
  apply iff_of_false
  · exact fun same => differ (letter_eq_of_signature same)
  · exact fun alike => differ alike.letter_eq

/-- Enums of one name share a signature exactly if their labels are spelled alike. -/
theorem enumSignature_eq_iff {type other : EnumType} (named : type.name = other.name) :
    enumSignature type = enumSignature other ↔
      Text.Alike LabelHalves type.labels.entries other.labels.entries := by
  rw [← spelling_labels.flatMap_eq_iff_alike, ← String.toList_inj]
  simp [toList_enumSignature, named]

/-- Records of one name share a signature exactly if their fields are spelled alike. -/
theorem recordSignature_eq_iff {name : String} {fields others : List (String × Fingerprint)} :
    recordSignature name fields = recordSignature name others ↔
      Text.Alike FieldHalves fields others := by
  rw [← spelling_fields.flatMap_eq_iff_alike, ← String.toList_inj]
  simp [toList_recordSignature]

/-- Arrays of one name share a signature exactly if the fingerprints of their elements are the same.
-/
theorem arraySignature_eq_iff {name : String} {element other : Fingerprint} :
    arraySignature name element = arraySignature name other ↔ element = other := by
  refine ⟨fun same => Fingerprint.hex_injective ?_, fun same => same ▸ rfl⟩
  simpa [← String.toList_inj, toList_arraySignature] using same

/-- Types of one name have the same signature exactly if they are spelled alike. -/
theorem signature_eq_iff (named : type.name = other.name) :
    type.signature = other.signature ↔ type.SpelledAlike other := by
  cases type with
  | scalar kind =>
    cases other with
    | scalar kind' =>
      obtain rfl : kind = kind' := Scalar.eq_of_name named
      simp [SpelledAlike]
    | _ => exact signature_eq_iff_of_letter (by simp [letter])
  | enum type =>
    cases other with
    | enum other => exact enumSignature_eq_iff named
    | _ => exact signature_eq_iff_of_letter (by simp [letter])
  | record name fields =>
    cases other with
    | record name' others =>
      obtain rfl : name = name' := named
      exact recordSignature_eq_iff
    | _ => exact signature_eq_iff_of_letter (by simp [letter])
  | array name element =>
    cases other with
    | array name' other =>
      obtain rfl : name = name' := named
      exact arraySignature_eq_iff
    | _ => exact signature_eq_iff_of_letter (by simp [letter])

/-- The name of a type without an opening brace is known from its signature. -/
theorem name_eq_of_signature (free : '\x7b' ∉ type.name.toList)
    (free' : '\x7b' ∉ other.name.toList) (same : type.signature = other.signature) :
    type.name = other.name := by
  have kind := letter_eq_of_signature same
  rw [← String.toList_inj] at same ⊢
  cases type with
  | scalar kind =>
    cases other with
    | scalar kind' => simpa [signature, name] using same
    | _ => simp [letter] at kind
  | enum type =>
    cases other with
    | enum other =>
      simp only [signature, toList_enumSignature] at same
      exact (Text.append_cons_inj free free' (List.append_cancel_left same)).1
    | _ => simp [letter] at kind
  | record name fields =>
    cases other with
    | record name' others =>
      simp only [signature, toList_recordSignature] at same
      exact (Text.append_cons_inj free free' (List.append_cancel_left same)).1
    | _ => simp [letter] at kind
  | array name element =>
    cases other with
    | array name' other =>
      simp only [signature, toList_arraySignature] at same
      refine (List.append_inj' (List.append_cancel_left same) ?_).1
      simp [Fingerprint.length_hex]
    | _ => simp [letter] at kind

end Signature

end DataType

end DeviceBlob
