import DeviceBlob.Proofs.Blob.Edit

/-!
# Setting a field

A field takes some of the values that it may be given, and shows each of them in one form: an
integer as itself, an ordinal as its label (`Layout.Shows`).  Exactly the values that a field shows
are encoded, and what is read from the bytes is what it shows (`Layout.Shows.encoded`,
`Layout.exists_shows_of_encoded`).  The bytes are put in at the place of the field, which no other
accessor shares, so all others are read as before (`set_of_layout`).
-/

namespace DeviceBlob

namespace Layout

/-- A field with the given content takes the first value and is then read as the second. -/
inductive Shows : Layout → Value → Value → Prop
  | truth (truth : Bool) : Shows (scalar .bool) (.bool truth) (.bool truth)
  | positive (n : Int64) : Shows (scalar .bool) (.int n) (.bool (0 < n.toInt))
  | integer {kind : Scalar} {n : Int64} (integer : kind ≠ .bool) (exact : kind.isFloat = false)
      (inside : kind.holds n.toInt = true) : Shows (scalar kind) (.int n) (.int n)
  | flag {kind : Scalar} (truth : Bool) (integer : kind ≠ .bool) (exact : kind.isFloat = false) :
      Shows (scalar kind) (.bool truth) (.int (if truth then 1 else 0))
  | double (x : Double) : Shows (scalar .float64) (.float x) (.float x)
  | doubleOfInt (n : Int64) : Shows (scalar .float64) (.int n) (.float (.ofInt n.toInt))
  | single (x : Double) : Shows (scalar .float32) (.float x) (.float x.toSingle)
  | singleOfInt (n : Int64) :
      Shows (scalar .float32) (.int n) (.float (Double.ofInt n.toInt).toSingle)
  | label {type : EnumType} {text : String} (declared : text ∈ type.labels.values) :
      Shows (enum type) (.label text) (.label text)
  | undefined (type : EnumType) :
      Shows (enum type) (.label EnumType.undefinedLabel) (.label EnumType.undefinedLabel)
  | ordinal {type : EnumType} {ordinal : Int32} {text : String}
      (declared : (ordinal, text) ∈ type.labels.entries) :
      Shows (enum type) (.int ordinal.toInt64) (.label text)
  | zero (type : EnumType) : Shows (enum type) (.int 0) (.label EnumType.undefinedLabel)

end Layout

/-! ### Which values are encoded -/

namespace Blob

open Layout

variable {content : Layout} {name : String} {value shown : Value}

/-- A number is encoded as its kind writes it. -/
theorem encoded_scalar {kind : Scalar} {bytes : Bytes} :
    encoded (.scalar kind) name value = .ok (some bytes) ↔ kind.write name value = .ok bytes := by
  unfold encoded
  rw [bind_eq_ok]
  simp [pure_eq_ok]

/-- A label is encoded as the four bytes of its ordinal. -/
theorem encoded_enum {type : EnumType} {bytes : Bytes} :
    encoded (.enum type) name value = .ok (some bytes) ↔
      ∃ ordinal, type.ordinalOf name value = .ok ordinal ∧ bytes = .ofInt 4 ordinal := by
  constructor
  · intro made
    obtain ⟨written, stored, same⟩ := bind_eq_ok.1 made
    obtain ⟨ordinal, given, put⟩ := bind_eq_ok.1 stored
    obtain rfl := pure_eq_ok.1 put
    cases same
    exact ⟨ordinal, given, rfl⟩
  · rintro ⟨ordinal, given, rfl⟩
    simp only [encoded, EnumType.write, given, ok_bind]
    rfl

/-- Nothing is encoded for padding, and for nothing else. -/
theorem encoded_eq_none_iff :
    encoded content name value = .ok none ↔ content.isPadding = true := by
  cases content with
  | scalar kind =>
    unfold encoded
    rw [bind_eq_ok]
    simp [pure_eq_ok, isPadding]
  | enum type =>
    unfold encoded
    rw [bind_eq_ok]
    simp [pure_eq_ok, isPadding]
  | _ => simp [encoded, isPadding]

end Blob

namespace Layout

open Blob

variable {content : Layout} {name : String} {value shown : Value}

/-- What shows a value is no padding. -/
theorem Shows.isPadding (h : content.Shows value shown) : content.isPadding = false := by
  cases h <;> rfl

/-- A value that a field shows is encoded, and is read from its bytes as it is shown. -/
theorem Shows.encoded (h : content.Shows value shown) (name : String) :
    ∃ bytes, Blob.encoded content name value = .ok (some bytes) ∧
      content.read? bytes = some shown := by
  cases h with
  | truth truth => exact ⟨_, rfl, congrArg some (Scalar.read_bool truth)⟩
  | positive n => exact ⟨_, rfl, congrArg some (Scalar.read_bool _)⟩
  | @integer kind n integer exact inside =>
    exact ⟨_, encoded_scalar.2 ((Scalar.write_int_eq_ok_iff integer exact).2 ⟨n, rfl, inside, rfl⟩),
      congrArg some (Scalar.read_ofInt integer exact inside)⟩
  | @flag kind truth integer exact =>
    have inside := @Scalar.holds_flag kind truth
    exact ⟨_, encoded_scalar.2 ((Scalar.write_int_eq_ok_iff integer exact).2 ⟨_, rfl, inside, rfl⟩),
      congrArg some (Scalar.read_ofInt integer exact inside)⟩
  | double x => exact ⟨_, rfl, congrArg some (Scalar.read_float64 x)⟩
  | doubleOfInt n => exact ⟨_, rfl, congrArg some (Scalar.read_float64 _)⟩
  | single x => exact ⟨_, rfl, congrArg some (Scalar.read_ofNat_float32 x)⟩
  | singleOfInt n => exact ⟨_, rfl, congrArg some (Scalar.read_ofNat_float32 _)⟩
  | @label type text declared =>
    obtain ⟨ordinal, looked, entry⟩ := EnumType.exists_ordinal declared
    have given : type.ordinalOf name (.label text) = .ok ordinal.toInt := by
      simp only [EnumType.ordinalOf, looked, ok_bind]
      rfl
    exact ⟨_, encoded_enum.2 ⟨_, given, rfl⟩, congrArg some (EnumType.read_of_entry entry)⟩
  | undefined type => exact ⟨_, rfl, congrArg some type.read_zero⟩
  | @ordinal type ordinal text declared =>
    have whole : ordinal.toInt64.toInt = ordinal.toInt := ordinal.toInt_toInt64
    have given : type.ordinalOf name (.int ordinal.toInt64) = .ok ordinal.toInt := by
      refine EnumType.ordinalOf_int_eq_ok.2 ⟨whole.symm, Or.inr ⟨text, ?_⟩⟩
      exact EnumType.label?_eq_some_iff.2 ⟨ordinal, whole, declared⟩
    exact ⟨_, encoded_enum.2 ⟨_, given, rfl⟩, congrArg some (EnumType.read_of_entry declared)⟩
  | zero type => exact ⟨_, rfl, congrArg some type.read_zero⟩

/-- Whatever is encoded is a value that the field shows. -/
theorem exists_shows_of_encoded {bytes : Bytes}
    (h : Blob.encoded content name value = .ok (some bytes)) :
    ∃ shown, content.Shows value shown := by
  cases content with
  | scalar kind =>
    have written := encoded_scalar.1 h
    by_cases integer : kind ≠ .bool ∧ kind.isFloat = false
    · obtain ⟨n, taken, inside, -⟩ := (Scalar.write_int_eq_ok_iff integer.1 integer.2).1 written
      cases value with
      | int n =>
        cases taken
        exact ⟨_, .integer integer.1 integer.2 inside⟩
      | bool truth => exact ⟨_, .flag truth integer.1 integer.2⟩
      | _ => cases taken
    · cases kind with
      | bool =>
        cases value with
        | bool truth => exact ⟨_, .truth truth⟩
        | int n => exact ⟨_, .positive n⟩
        | _ => cases written
      | float32 =>
        cases value with
        | float x => exact ⟨_, .single x⟩
        | int n => exact ⟨_, .singleOfInt n⟩
        | _ => cases written
      | float64 =>
        cases value with
        | float x => exact ⟨_, .double x⟩
        | int n => exact ⟨_, .doubleOfInt n⟩
        | _ => cases written
      | _ => exact absurd ⟨by decide, rfl⟩ integer
  | enum type =>
    obtain ⟨ordinal, given, -⟩ := encoded_enum.1 h
    cases value with
    | label text =>
      obtain ⟨found, looked, -⟩ := bind_eq_ok.1 given
      rcases EnumType.ordinal_eq_ok looked with ⟨rfl, -⟩ | entry
      · exact ⟨_, .undefined type⟩
      · exact ⟨_, .label (List.mem_map_of_mem entry)⟩
    | int n =>
      obtain ⟨-, zero | ⟨text, declared⟩⟩ := EnumType.ordinalOf_int_eq_ok.1 given
      · obtain rfl : n = 0 := Int64.toInt_inj.1 zero
        exact ⟨_, .zero type⟩
      · obtain ⟨ordinal, same, entry⟩ := EnumType.label?_eq_some_iff.1 declared
        obtain rfl : n = ordinal.toInt64 := Int64.toInt_inj.1 (same.trans ordinal.toInt_toInt64.symm)
        exact ⟨_, .ordinal entry⟩
    | _ => cases given
  | _ => cases h

/-- The accessors of a layout lie one behind the other in its first bytes: in all of them, or in the
header of an array. -/
theorem exists_tiles_accessors (layout : Layout) :
    ∃ stop, stop ≤ layout.size ∧ Tiles 0 stop layout.accessors := by
  cases isArray : layout.isArray with
  | false => exact ⟨layout.size, Nat.le_refl _, tiles_accessors isArray⟩
  | true =>
    obtain ⟨name, capacity, element, rfl⟩ := isArray_iff.1 isArray
    refine ⟨headerSize, Nat.le_add_right _ _, ?_⟩
    exact tiles_placeAccessors "" 0 headerFields

end Layout

namespace Blob

open Layout

/-! ### What setting a field changes -/

variable {blob after : Blob} {place region : Field} {name other : String} {value shown : Value}

/-- Setting a field succeeds exactly when the field is there and its value can be encoded. -/
theorem set_eq_ok_iff : blob.set name value = .ok after ↔
    ∃ place, blob.accessor name = .ok place ∧
      ((place.content.isPadding = true ∧ after = blob) ∨
        ∃ bytes, encoded place.content name value = .ok (some bytes) ∧
          after = { blob with bytes := blob.bytes.splice place.offset bytes }) := by
  unfold set
  simp only [bind_eq_ok]
  constructor
  · rintro ⟨place, found, given, made, same⟩
    refine ⟨place, found, ?_⟩
    cases given with
    | none => exact Or.inl ⟨encoded_eq_none_iff.1 made, (pure_eq_ok.1 same).symm⟩
    | some bytes => exact Or.inr ⟨bytes, made, (pure_eq_ok.1 same).symm⟩
  · rintro ⟨place, found, ⟨padding, rfl⟩ | ⟨bytes, made, rfl⟩⟩
    · exact ⟨place, found, none, encoded_eq_none_iff.2 padding, rfl⟩
    · exact ⟨place, found, some bytes, made, rfl⟩

/-- A field that is found by its name is inside the bytes of the layout. -/
theorem bounds_of_accessor (found : blob.accessor name = .ok place) :
    place.offset + place.content.size ≤ blob.layout.size := by
  obtain ⟨stop, inside, tiles⟩ := exists_tiles_accessors blob.layout
  exact Nat.le_trans (tiles.bounds.2 place (accessor_eq_ok found).1).2 inside

/-- Fields with different names share no byte. -/
theorem apart_of_accessor (found : blob.accessor name = .ok place)
    (found' : blob.accessor other = .ok region) (differ : other ≠ name) :
    region.offset + region.content.size ≤ place.offset ∨
      place.offset + place.content.size ≤ region.offset := by
  obtain ⟨mem, named⟩ := accessor_eq_ok found
  obtain ⟨mem', named'⟩ := accessor_eq_ok found'
  obtain ⟨stop, -, tiles⟩ := exists_tiles_accessors blob.layout
  rcases tiles.apart mem mem' with rfl | apart
  · exact absurd (named'.symm.trans named) differ
  · exact apart

/-- A blob has other bytes at a place at most. -/
structure ChangedWithin (place : Field) (before after : Blob) : Prop where
  layout : after.layout = before.layout
  length : after.bytes.length = before.bytes.length
  outside : ∀ start length, start + length ≤ place.offset ∨
    place.offset + place.content.size ≤ start →
      after.bytes.slice start length = before.bytes.slice start length

namespace ChangedWithin

/-- A blob has no change from itself. -/
theorem refl (place : Field) (blob : Blob) : ChangedWithin place blob blob :=
  ⟨rfl, rfl, fun _ _ _ => rfl⟩

/-- Bytes of the size of a place are put in there. -/
theorem splice {bytes : Bytes} (room : place.offset + place.content.size ≤ blob.bytes.length)
    (size : bytes.length = place.content.size) :
    ChangedWithin place blob { blob with bytes := blob.bytes.splice place.offset bytes } where
  layout := rfl
  length := Bytes.length_splice (by omega)
  outside := fun start length apart => Bytes.slice_splice_apart (by omega) (by omega)

/-- A field with another name is a part of the bytes that stay the same. -/
theorem part_eq (changed : ChangedWithin place blob after) (found : blob.accessor name = .ok place)
    (found' : blob.accessor other = .ok region) (differ : other ≠ name) :
    after.part region = blob.part region :=
  congrArg (Blob.mk region.content)
    (changed.outside _ _ (apart_of_accessor found found' differ))

/-- Fields with other names are read as before. -/
theorem get_eq (changed : ChangedWithin place blob after) (found : blob.accessor name = .ok place)
    (differ : other ≠ name) : after.get other = blob.get other := by
  have accessed : after.accessor other = blob.accessor other := by
    unfold accessor
    rw [changed.layout]
  unfold get
  rw [accessed]
  cases found' : blob.accessor other with
  | error e => rfl
  | ok region => rw [ok_bind, ok_bind, changed.part_eq found found' differ]

end ChangedWithin

/-- What is shown by a field that was set. -/
theorem get_of_shows (room : blob.layout.size ≤ blob.bytes.length)
    (found : blob.accessor name = .ok place) (shows : place.content.Shows value shown)
    (set : blob.set name value = .ok after) : after.get name = .ok shown := by
  have inside := bounds_of_accessor found
  obtain ⟨place', found', ⟨padding, -⟩ | ⟨bytes, made, rfl⟩⟩ := set_eq_ok_iff.1 set
  all_goals cases found.symm.trans found'
  · rw [shows.isPadding] at padding
    cases padding
  · obtain ⟨bytes', made', read⟩ := shows.encoded name
    cases made.symm.trans made'
    have size : bytes.length = place.content.size := (orderly_of_encoded made).length
    have put : (blob.bytes.splice place.offset bytes).slice place.offset place.content.size =
        bytes := Bytes.slice_splice (by omega) size
    rw [← put] at read
    have same : ({ blob with bytes := blob.bytes.splice place.offset bytes } : Blob).accessor name =
        blob.accessor name := rfl
    unfold get
    rw [same, found, ok_bind]
    simp only [part, read]
    rfl

/-- **Setting a field by its name** succeeds exactly if there is such a field and it is padding or
takes the value; if it fails, the blob stays as it is.  If it succeeds, the bytes stay the same but
for those of the field, which is then read as it shows the value, and all other fields and arrays
are read as before.  Padding stays as it is. -/
theorem set_changes_one_field (room : blob.layout.size ≤ blob.bytes.length) (name : String)
    (value : Value) :
    ((∃ after, blob.set name value = .ok after) ↔ ∃ place, blob.accessor name = .ok place ∧
      (place.content.isPadding = true ∨ ∃ shown, place.content.Shows value shown)) ∧
    (∀ e, blob.set name value = .error e → blob.edit (.set [] name value) = blob) ∧
    ∀ after, blob.set name value = .ok after → ∃ place, blob.accessor name = .ok place ∧
      ChangedWithin place blob after ∧
      (place.content.isPadding = true → after = blob) ∧
      (∀ shown, place.content.Shows value shown → after.get name = .ok shown) ∧
      (∀ bits, place.content = .scalar .float32 → value = .float (.ofSingleBits bits) →
        (Double.ofSingleBits bits).toSingleBits = bits → after.get name = .ok value) ∧
      (∀ other, other ≠ name → after.get other = blob.get other) ∧
      (∀ other region, other ≠ name → blob.accessor other = .ok region →
        after.part region = blob.part region) := by
  refine ⟨?_, ?_, ?_⟩
  · constructor
    · rintro ⟨after, set⟩
      obtain ⟨place, found, ⟨padding, -⟩ | ⟨bytes, made, -⟩⟩ := set_eq_ok_iff.1 set
      · exact ⟨place, found, Or.inl padding⟩
      · exact ⟨place, found, Or.inr (exists_shows_of_encoded made)⟩
    · rintro ⟨place, found, padding | ⟨shown, shows⟩⟩
      · exact ⟨blob, set_eq_ok_iff.2 ⟨place, found, Or.inl ⟨padding, rfl⟩⟩⟩
      · obtain ⟨bytes, made, -⟩ := shows.encoded name
        exact ⟨_, set_eq_ok_iff.2 ⟨place, found, Or.inr ⟨bytes, made, rfl⟩⟩⟩
  · intro e failed
    simp only [edit, changeAt, failed, orKeep]
  · intro after set
    obtain ⟨place, found, done⟩ := set_eq_ok_iff.1 set
    have inside := Nat.le_trans (bounds_of_accessor found) room
    have changed : ChangedWithin place blob after := by
      rcases done with ⟨-, rfl⟩ | ⟨bytes, made, rfl⟩
      · exact .refl place _
      · exact .splice inside (orderly_of_encoded made).length
    refine ⟨place, found, changed, ?_, ?_, ?_, ?_, ?_⟩
    · intro padding
      rcases done with ⟨-, same⟩ | ⟨bytes, made, -⟩
      · exact same
      · rw [encoded_eq_none_iff.2 padding] at made
        cases made
    · exact fun shown shows => get_of_shows room found shows set
    · rintro bits single rfl kept
      have shows : place.content.Shows (.float (.ofSingleBits bits))
          (.float (Double.ofSingleBits bits).toSingle) := by
        rw [single]
        exact .single _
      rw [get_of_shows room found shows set, Double.toSingle, kept]
    · exact fun other differ => changed.get_eq found differ
    · exact fun other region differ found' => changed.part_eq found found' differ

/-- A particle in an empty slot. -/
def emptyParticle : Blob := ⟨Scene.particleLayout, Scene.particleLayout.blankSlot⟩

/-- A particle that is given the ordinal of a state shows the label of that state, and the index that
it had. -/
theorem set_changes_one_field_particle :
    emptyParticle.layout.size ≤ emptyParticle.bytes.length ∧
      ∃ after, emptyParticle.set "state" (.int 2) = .ok after ∧
        after.get "state" = .ok (.label "moving") ∧ after.get "index" = .ok (.int (-1)) := by
  have room : emptyParticle.layout.size ≤ emptyParticle.bytes.length := by decide
  have found : emptyParticle.accessor "state" = .ok ⟨"state", 20, .enum Scene.stateType⟩ := rfl
  have shows : (Layout.enum Scene.stateType).Shows (.int 2) (.label "moving") :=
    @Layout.Shows.ordinal Scene.stateType 2 "moving" (by decide)
  obtain ⟨takes, -, changes⟩ := set_changes_one_field room "state" (.int 2)
  obtain ⟨after, set⟩ := takes.2 ⟨_, found, Or.inr ⟨_, shows⟩⟩
  obtain ⟨place, found', -, -, shown, -, others, -⟩ := changes after set
  cases found.symm.trans found'
  refine ⟨room, after, set, shown _ shows, ?_⟩
  rw [others "index" (by decide)]
  rfl

end Blob

end DeviceBlob
