import DeviceBlob.Proofs.Blob.Set

/-!
# Nested records

A nested record is found under the joined names of the fields that lead to it (`recordPlace_iff`).
Field names may hold separators, so several ways may have one name; whichever of them is found, the
fields of the record are fields of the whole under longer names and at the same bytes
(`accessor_of_record`).  Reading and setting them in the record or in the whole is therefore the same
(`get_part_iff`, `set_part_iff`).  Main statement: `record_shares_fields`.
-/

namespace DeviceBlob

namespace Layout

/-! ### The names on a way -/

/-- The address along two ways is that along the second from the end of the first. -/
theorem addressOf_append (address : String) (way others : List Field) :
    addressOf address (way ++ others) = addressOf (addressOf address way) others := by
  rw [addressOf, List.map_append, List.foldl_append]
  rfl

/-- An address only puts its name in front. -/
theorem addressOf_eq_join (address : String) : ∀ {way : List Field}, way ≠ [] →
    (∀ field ∈ way, field.name ≠ "") →
      addressOf address way = Name.join address (addressOf "" way)
  | [_], _, _ => rfl
  | field :: next :: rest, _, named => by
    have here := named field List.mem_cons_self
    have behind : ∀ other ∈ next :: rest, other.name ≠ "" := fun other mem =>
      named other (List.mem_cons_of_mem _ mem)
    have longer : addressOf address (field :: next :: rest) =
        addressOf (Name.join address field.name) (next :: rest) := rfl
    have whole : addressOf "" (field :: next :: rest) = addressOf field.name (next :: rest) := rfl
    rw [longer, whole, addressOf_eq_join _ (List.cons_ne_nil _ _) behind,
      addressOf_eq_join field.name (List.cons_ne_nil _ _) behind, Name.join_assoc _ _ _ here]

/-- The address of what a way leads to is made of the names on the way. -/
theorem addressOf_eq_intercalate : ∀ {way : List Field}, (∀ field ∈ way, field.name ≠ "") →
    addressOf "" way = "_".intercalate (way.map (·.name))
  | [], _ => rfl
  | [_], _ => rfl
  | field :: next :: rest, named => by
    have here := named field List.mem_cons_self
    have behind : ∀ other ∈ next :: rest, other.name ≠ "" := fun other mem =>
      named other (List.mem_cons_of_mem _ mem)
    have whole : addressOf "" (field :: next :: rest) = addressOf field.name (next :: rest) := rfl
    rw [whole, addressOf_eq_join field.name (List.cons_ne_nil _ _) behind,
      addressOf_eq_intercalate behind, Name.join_of_ne_empty here]
    exact String.intercalate_cons_cons.symm

namespace Reaches

variable {layout part : Layout} {way : List Field}

/-- The fields on a way have names. -/
theorem named (h : Reaches layout way part) (formed : layout.WellFormed) :
    ∀ field ∈ way, field.name ≠ "" := by
  induction h with
  | stop => exact fun _ mem => absurd mem List.not_mem_nil
  | step mem _ ih =>
    intro field among
    rcases List.mem_cons.1 among with rfl | among
    · exact formed.1.named (content_of_mem_placeFields mem)
    · exact ih (formed.field mem) field among

/-- A way goes on in what it leads to. -/
theorem leads {others : List Field} {last : Layout} (h : Reaches layout way part)
    (below : Leads part others last) : Leads layout (way ++ others) last := by
  induction h with
  | stop => exact below
  | step mem _ ih => exact .step mem (ih below)

end Reaches

/-- The distance along two ways is the sum. -/
theorem distance_append (way others : List Field) :
    distance (way ++ others) = distance way + distance others := by
  simp only [distance, List.map_append, List.sum_append]

/-- An accessor is found by its name. -/
theorem WellFormed.accessor?_eq {layout : Layout} (formed : layout.WellFormed) {place : Field}
    (mem : place ∈ layout.accessors) : layout.accessor? place.name = some place := by
  cases found : layout.accessor? place.name with
  | none => exact absurd (List.find?_eq_none.1 found place mem) (by simp)
  | some other =>
    have named := List.find?_some found
    have same := List.inj_on_of_nodup_map formed.nodup_accessors
      (List.mem_of_find?_eq_some found) mem (by simpa using named)
    rw [same]

/-- The accessors of a nested record are accessors of the whole. -/
theorem Reaches.accessor {layout part : Layout} {field : Field} {rest : List Field} {place : Field}
    (h : Reaches layout (field :: rest) part) (formed : layout.WellFormed)
    (isRecord : part.isRecord = true) (mem : place ∈ part.accessors) :
    ⟨Name.join (addressOf "" (field :: rest)) place.name,
      distance (field :: rest) + place.offset, place.content⟩ ∈ layout.accessors := by
  obtain ⟨next, more, among, leads, named, starts⟩ := mem_accessors_iff.1 mem
  have below : Leads part (next :: more) place.content := by
    cases part with
    | record name fields => exact .step among leads
    | _ => cases isRecord
  have names := below.reaches.named (h.contains.wellFormed formed)
  rw [named, starts, ← distance_append, ← addressOf_eq_join _ (List.cons_ne_nil _ _) names,
    ← addressOf_append]
  cases h with
  | step first way =>
    refine mem_accessors_iff.2 ⟨field, rest ++ next :: more, first, ?_, rfl, rfl⟩
    exact way.leads below

end Layout

namespace Scalar

/-- The bytes of a value do not depend on the field that it is given for. -/
theorem write_of_write {kind : Scalar} {field : String} {value : Value} {bytes : Bytes}
    (h : kind.write field value = .ok bytes) (other : String) :
    kind.write other value = .ok bytes := by
  have integer : ∀ {n}, kind.writeInt field n = .ok bytes → kind.writeInt other n = .ok bytes := by
    intro n h
    unfold writeInt at h ⊢
    split at h
    · next inside =>
      rw [if_pos inside]
      exact h
    · cases h
  unfold write at h ⊢
  split at h
  · split at h
    · exact h
    · cases h
  · split at h
    · exact h
    · cases h
  · split at h
    · exact h
    · cases h
  · split at h
    · exact integer h
    · cases h

end Scalar

namespace EnumType

/-- The ordinal of a label does not depend on the field it is for. -/
theorem ordinalOf_of_ordinalOf {type : EnumType} {field : String} {value : Value} {n : Int}
    (h : type.ordinalOf field value = .ok n) (other : String) :
    type.ordinalOf other value = .ok n := by
  cases value with
  | label text => exact h
  | int n => exact h
  | _ => cases h

end EnumType

namespace Blob

open Layout

variable {blob view after : Blob} {name inner : String} {part place : Field} {value : Value}

/-- What is put into a field does not depend on the name that it is set by. -/
theorem encoded_of_encoded {content : Layout} {bytes : Bytes}
    (h : encoded content name value = .ok (some bytes)) (other : String) :
    encoded content other value = .ok (some bytes) := by
  cases content with
  | scalar kind => exact encoded_scalar.2 (Scalar.write_of_write (encoded_scalar.1 h) other)
  | enum type =>
    obtain ⟨ordinal, given, same⟩ := encoded_enum.1 h
    exact encoded_enum.2 ⟨ordinal, EnumType.ordinalOf_of_ordinalOf given other, same⟩
  | _ => cases h

/-! ### Finding a record -/

/-- A record is found exactly under the joined names of the fields on a way to one. -/
theorem recordPlace_iff : (∃ place, blob.recordPlace name = .ok place) ↔
    ∃ way part, way ≠ [] ∧ Reaches blob.layout way part ∧ part.isRecord = true ∧
      name = "_".intercalate (way.map (·.name)) := by
  unfold recordPlace
  constructor
  · rintro ⟨place, found⟩
    split at found
    · next record same =>
      obtain ⟨field, rest, reaches, -, isRecord, named⟩ := reaches_of_recordIn? same
      exact ⟨_, _, List.cons_ne_nil _ _, reaches, isRecord, named⟩
    · cases found
  · rintro ⟨way, part, nonempty, reaches, isRecord, rfl⟩
    obtain ⟨field, rest, rfl⟩ := List.exists_cons_of_ne_nil nonempty
    obtain ⟨record, found⟩ := Option.isSome_iff_exists.1 (isSome_recordIn? 0 reaches isRecord)
    rw [found]
    exact ⟨_, rfl⟩

/-- The accessors of a record that is found are accessors of the whole. -/
theorem accessor_of_record (formed : blob.layout.WellFormed)
    (found : blob.recordPlace name = .ok part) (accessed : (blob.part part).accessor inner = .ok place) :
    blob.accessor (Name.join name inner) =
      .ok ⟨Name.join name inner, part.offset + place.offset, place.content⟩ := by
  unfold recordPlace at found
  split at found
  · next record same =>
    cases found
    obtain ⟨field, rest, reaches, starts, isRecord, named⟩ := reaches_of_recordIn? same
    obtain ⟨mem, rfl⟩ := accessor_eq_ok accessed
    have outer := formed.accessor?_eq (reaches.accessor formed isRecord mem)
    rw [addressOf_eq_intercalate (reaches.named formed), ← named, ← Nat.zero_add (distance _),
      ← starts] at outer
    unfold accessor
    rw [outer]
  · cases found

/-! ### Reading and setting a field of a record -/

/-- A part that is put back as it was changes nothing. -/
theorem replacePart_part (room : part.offset + part.content.size ≤ blob.bytes.length) :
    blob.replacePart part (blob.part part) = blob := by
  have size : (blob.part part).bytes.length = part.content.size := Bytes.length_slice room
  refine congrArg (Blob.mk blob.layout) (Bytes.splice_of_slice ?_)
  rw [size]
  rfl

namespace Readable

/-- A field of a record has the same bytes as the field of the whole. -/
theorem part_part (accessed : (blob.part part).accessor inner = .ok place) (longer : String) :
    (blob.part part).part place =
      blob.part ⟨longer, part.offset + place.offset, place.content⟩ :=
  congrArg (Blob.mk place.content) (Bytes.slice_slice (bounds_of_accessor accessed))

/-- A field of a record is read as the field of the whole is. -/
theorem get_part_iff (h : blob.Readable) (found : blob.recordPlace name = .ok part)
    (accessed : (blob.part part).accessor inner = .ok place) :
    (blob.part part).get inner = .ok value ↔ blob.get (Name.join name inner) = .ok value := by
  have outer := accessor_of_record h.formed found accessed
  unfold get
  rw [accessed, outer, ok_bind, ok_bind, part_part accessed (Name.join name inner)]
  simp only
  split
  · exact Iff.rfl
  · exact iff_of_false (by simp) (by simp)

/-- A field of the whole takes what the field of the record takes, and the whole then holds what the
record does. -/
theorem set_part_iff (h : blob.Readable) (found : blob.recordPlace name = .ok part)
    (accessed : (blob.part part).accessor inner = .ok place) :
    blob.set (Name.join name inner) value = .ok after ↔
      ∃ view, (blob.part part).set inner value = .ok view ∧ after = blob.replacePart part view := by
  have outer := accessor_of_record h.formed found accessed
  have room := h.room_of_contains (@contains_of_placeOf blob part (.record name) found)
  have inside := bounds_of_accessor accessed
  have put : ∀ {bytes : Bytes} {name : String}, encoded place.content name value = .ok (some bytes) →
      blob.bytes.splice part.offset ((blob.part part).bytes.splice place.offset bytes) =
        blob.bytes.splice (part.offset + place.offset) bytes := by
    intro bytes name made
    have size : bytes.length = place.content.size := (orderly_of_encoded made).length
    exact Bytes.splice_slice (size ▸ inside) room
  rw [set_eq_ok_iff]
  constructor
  · rintro ⟨field, accessed', done⟩
    cases outer.symm.trans accessed'
    rcases done with ⟨padding, rfl⟩ | ⟨bytes, made, rfl⟩
    · exact ⟨_, set_eq_ok_iff.2 ⟨place, accessed, Or.inl ⟨padding, rfl⟩⟩,
        (replacePart_part room).symm⟩
    · refine ⟨_, set_eq_ok_iff.2 ⟨place, accessed,
        Or.inr ⟨bytes, encoded_of_encoded made inner, rfl⟩⟩, ?_⟩
      exact congrArg (Blob.mk blob.layout) (put made).symm
  · rintro ⟨view, set, rfl⟩
    obtain ⟨field, accessed', done⟩ := set_eq_ok_iff.1 set
    cases accessed.symm.trans accessed'
    rcases done with ⟨padding, rfl⟩ | ⟨bytes, made, rfl⟩
    · exact ⟨_, outer, Or.inl ⟨padding, replacePart_part room⟩⟩
    · refine ⟨_, outer, Or.inr ⟨bytes, encoded_of_encoded made (Name.join name inner), ?_⟩⟩
      exact congrArg (Blob.mk blob.layout) (put made)

/-- Setting a field in a record leaves the blob that setting it in the whole does, also if it
fails. -/
theorem edit_record_eq (h : blob.Readable) (found : blob.recordPlace name = .ok part)
    (accessed : (blob.part part).accessor inner = .ok place) :
    blob.edit (.set [.record name] inner value) =
      blob.edit (.set [] (Name.join name inner) value) := by
  have room := h.room_of_contains (@contains_of_placeOf blob part (.record name) found)
  have chosen : blob.placeOf (.record name) = .ok part := found
  simp only [edit, changeAt, chosen]
  cases set : (blob.part part).set inner value with
  | ok view =>
    rw [(h.set_part_iff found accessed).2 ⟨view, set, rfl⟩]
    rfl
  | error e =>
    cases whole : blob.set (Name.join name inner) value with
    | ok after =>
      obtain ⟨view, done, -⟩ := (h.set_part_iff found accessed).1 whole
      cases set.symm.trans done
    | error other => exact replacePart_part room

end Readable

/-- **The fields of a nested record are fields of the whole.**  A record is found exactly under the
joined names of the fields on a way to one.  Each accessor of a record that is found is an accessor of
the whole under the joined name, with the same content.  Its value is the same in both, whatever the
bytes are, or cannot be read from either.  It can be set to the same values in both, and setting it
leaves the whole with the same bytes, also if it fails. -/
theorem record_shares_fields {compiler : Compiler} {type : DataType} {params : Params}
    (buildable : type.Buildable) (compiled : compiler.layout type params = .ok blob.layout)
    (room : blob.layout.size ≤ blob.bytes.length) (name : String) :
    ((∃ view, blob.viewAt [.record name] = .ok view) ↔
      ∃ way part, way ≠ [] ∧ Reaches blob.layout way part ∧ part.isRecord = true ∧
        name = "_".intercalate (way.map (·.name))) ∧
    ∀ view, blob.viewAt [.record name] = .ok view →
      ∀ inner place, view.accessor inner = .ok place →
        (∃ outer, blob.accessor (Name.join name inner) = .ok outer ∧
          outer.content = place.content) ∧
        (∀ value, view.get inner = .ok value ↔ blob.get (Name.join name inner) = .ok value) ∧
        (∀ value, (∃ after, view.set inner value = .ok after) ↔
          ∃ after, blob.set (Name.join name inner) value = .ok after) ∧
        ∀ value, blob.edit (.set [.record name] inner value) =
          blob.edit (.set [] (Name.join name inner) value) := by
  have h : blob.Readable := ⟨wellFormed_of_layout buildable compiled, room⟩
  constructor
  · rw [← recordPlace_iff]
    constructor
    · rintro ⟨view, found⟩
      obtain ⟨place, chosen, -⟩ := bind_eq_ok.1 found
      exact ⟨place, chosen⟩
    · rintro ⟨place, chosen⟩
      exact ⟨blob.part place, bind_eq_ok.2 ⟨place, chosen, rfl⟩⟩
  · intro view found inner place accessed
    obtain ⟨part, chosen, same⟩ := bind_eq_ok.1 found
    cases same
    refine ⟨⟨_, accessor_of_record h.formed chosen accessed, rfl⟩,
      fun value => h.get_part_iff chosen accessed, ?_, fun value => h.edit_record_eq chosen accessed⟩
    intro value
    constructor
    · rintro ⟨view, set⟩
      exact ⟨_, (h.set_part_iff chosen accessed).2 ⟨view, set, rfl⟩⟩
    · rintro ⟨after, set⟩
      obtain ⟨view, done, -⟩ := (h.set_part_iff chosen accessed).1 set
      exact ⟨view, done⟩

end Blob

/-! ### Two records with one name -/

namespace Rig

def hingeType : DataType := .record "Hinge" [("angle", .scalar .int16)]

def ballType : DataType := .record "Ball" [("turn", .scalar .int32)]

def armType : DataType := .record "Arm" [("joint", ballType)]

/-- A rig has two joints of one name: one of its own and one that is a part of its arm. -/
def rigType : DataType := .record "Rig" [("arm_joint", hingeType), ("arm", armType)]

def rigLayout : Layout :=
  .record "Rig" [("arm_joint", .record "Hinge" [("angle", .scalar .int16)]),
    ("arm", .record "Arm" [("joint", .record "Ball" [("turn", .scalar .int32)])])]

/-- The rig can be built. -/
theorem buildable_rigType : rigType.Buildable := by
  have hinge : hingeType.Buildable := by
    have built : DataType.ofFields "Hinge" [("angle", .scalar .int16)] = .ok hingeType := rfl
    refine .record ?_ built
    simp [DataType.Buildable.scalar]
  have ball : ballType.Buildable := by
    have built : DataType.ofFields "Ball" [("turn", .scalar .int32)] = .ok ballType := rfl
    refine .record ?_ built
    simp [DataType.Buildable.scalar]
  have arm : armType.Buildable := by
    have built : DataType.ofFields "Arm" [("joint", ballType)] = .ok armType := rfl
    refine .record ?_ built
    simp [ball]
  have built : DataType.ofFields "Rig" [("arm_joint", hingeType), ("arm", armType)] =
      .ok rigType := rfl
  refine .record ?_ built
  simp [hinge, arm]

/-- The layout of the rig. -/
theorem layout_rigType : (Compiler.mk .aligned 5000).layout rigType ∅ = .ok rigLayout := rfl

/-- The bytes of a rig, with something else behind it. -/
def rig : Blob := ⟨rigLayout, [7, 0, 9, 0, 0, 0, 255]⟩

end Rig

namespace Blob

/-- The first of the two joints is found, and its angle is set as that of the rig. -/
theorem record_shares_fields_rig :
    Rig.rigType.Buildable ∧
      (Compiler.mk .aligned 5000).layout Rig.rigType ∅ = .ok Rig.rig.layout ∧
      Rig.rig.layout.size ≤ Rig.rig.bytes.length ∧
      Rig.rig.get "arm_joint_angle" = .ok (.int 7) ∧
      (Rig.rig.edit (.set [.record "arm_joint"] "angle" (.int 8))).bytes =
        [8, 0, 9, 0, 0, 0, 255] := by
  have room : Rig.rig.layout.size ≤ Rig.rig.bytes.length := by decide
  obtain ⟨-, shares⟩ :=
    @record_shares_fields Rig.rig _ _ _ Rig.buildable_rigType Rig.layout_rigType room "arm_joint"
  obtain ⟨-, reads, -, sets⟩ := shares _ rfl "angle" _ rfl
  refine ⟨Rig.buildable_rigType, Rig.layout_rigType, room, (reads _).1 rfl, ?_⟩
  rw [sets]
  rfl

end Blob

end DeviceBlob
