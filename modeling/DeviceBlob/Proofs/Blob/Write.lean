import DeviceBlob.Blob.Basic
import DeviceBlob.Proofs.Blob.Codec
import DeviceBlob.Proofs.Blob.Slots

/-!
# What writing a tree does to the bytes

A tree that is accepted fills exactly the bytes of its layout (`length_write`).  Every scalar and
label in the layout is then found at its place as the bytes of the value that the tree gives for it
(`encoded_of_write`): the first pass puts it there, and the second pass, which fills the arrays,
leaves it alone.  A tree is refused because of one of its entries or because of a slot that an array
does not have (`write_failsOnly`), never because an array is full (`write_neverFull`).

The places of a layout are met in two ways, by their offsets and by the recursion of the two
passes.  The statements here are about a whole buffer of which the layout covers a slice, so that
no offsets have to be subtracted on the way down.
-/

namespace DeviceBlob

namespace Layout

/-! ### One element of an array -/

/-- The bytes of an array with an element made of the given entries in a slot. -/
def writeSlot (capacity : Nat) (element : Layout) (bytes : Bytes)
    (entry : Nat × SortedMap String Value) : Except Error Bytes :=
  if capacity ≤ entry.1 then .error (.slotOutOfRange entry.1 capacity)
  else do
    let content ← element.write (Slots.slot element bytes entry.1) (withIndex entry.1 entry.2)
    return Slots.setSlot element bytes entry.1 content

/-- An array is written slot by slot, and each slot like a blob of its own. -/
theorem writeArrays_array (address name : String) (capacity : Nat) (element : Layout)
    (bytes : Bytes) (entries : Entries) :
    writeArrays address (array name capacity element) bytes entries = (do
      let written ←
        (takenSlots address entries).entries.foldlM (writeSlot capacity element) bytes
      return (Slots.recount capacity element written, untaken address entries)) := by
  have step : ∀ (b : Bytes) (entry : Nat × SortedMap String Value),
      writeSlot capacity element b entry = (do
        if capacity ≤ entry.1 then throw (.slotOutOfRange entry.1 capacity)
        let flat := withIndex entry.1 entry.2
        let content := Slots.slot element b entry.1
        let content ← writeLeaves element.typeName flat element.rootAddress element content
        let written ←
          writeArrays element.rootAddress element content (element.remaining flat)
        checkAllTaken element.typeName written.2
        return Slots.setSlot element b entry.1 written.1) := by
    intro b entry
    unfold writeSlot write
    split
    · rfl
    · simp
  rw [writeArrays]
  congr 2
  funext b entry
  exact (step b entry).symm

/-- A slot is written exactly if it is in range and its element is written, with the number of the
slot as the index unless the tree says otherwise. -/
theorem writeSlot_eq_ok_iff {capacity : Nat} {element : Layout} {bytes out : Bytes} {slot : Nat}
    {flat : SortedMap String Value} :
    writeSlot capacity element bytes (slot, flat) = .ok out ↔
      slot < capacity ∧ ∃ content,
        element.write (Slots.slot element bytes slot) (withIndex slot flat) = .ok content ∧
          out = Slots.setSlot element bytes slot content := by
  unfold writeSlot
  split
  · next beyond =>
    simp only [reduceCtorEq, false_iff]
    rintro ⟨inside, -⟩
    exact absurd inside (Nat.not_lt.2 beyond)
  · next inside =>
    rw [bind_eq_ok]
    constructor
    · rintro ⟨content, written, put⟩
      exact ⟨Nat.not_le.1 inside, content, written, (pure_eq_ok.1 put).symm⟩
    · rintro ⟨-, content, written, rfl⟩
      exact ⟨content, written, rfl⟩

/-- A tree is written exactly if all leaves get values, all slots are written, and no name is left.
-/
theorem write_eq_ok_iff {layout : Layout} {bytes out : Bytes} {flat : SortedMap String Value} :
    layout.write bytes flat = .ok out ↔
      ∃ leaves rest, layout.writeLeaves layout.typeName flat layout.rootAddress bytes = .ok leaves ∧
        layout.writeArrays layout.rootAddress leaves (layout.remaining flat) = .ok (out, rest) ∧
          rest = [] := by
  simp only [write, bind_eq_ok, pure_eq_ok]
  constructor
  · rintro ⟨leaves, here, ⟨filled, rest⟩, there, _, taken, rfl⟩
    refine ⟨leaves, rest, here, there, ?_⟩
    cases rest with
    | nil => rfl
    | cons entry rest => cases taken
  · rintro ⟨leaves, rest, here, there, rfl⟩
    exact ⟨leaves, here, (out, []), there, (), rfl, rfl⟩

/-! ### The steps of the two passes -/

variable {owner : String} {flat : SortedMap String Value}

/-- A number is written exactly if its name is there with a value of its kind. -/
theorem writeLeaves_scalar_eq_ok_iff {address : String} {kind : Scalar} {bytes out : Bytes} :
    writeLeaves owner flat address (scalar kind) bytes = .ok out ↔
      ∃ value, flat.get? address = some value ∧ kind.write address value = .ok out := by
  rw [writeLeaves, given]
  cases flat.get? address with
  | none => simp [bind, Except.bind]
  | some value => simp

/-- A label is written exactly if its name is there with a value of the enum. -/
theorem writeLeaves_enum_eq_ok_iff {address : String} {type : EnumType} {bytes out : Bytes} :
    writeLeaves owner flat address (enum type) bytes = .ok out ↔
      ∃ value, flat.get? address = some value ∧ type.write address value = .ok out := by
  rw [writeLeaves, given]
  cases flat.get? address with
  | none => simp [bind, Except.bind]
  | some value => simp

/-- The leaves of fields are written exactly if those of the first field are and then those of the
rest. -/
theorem writeLeafFields_cons_eq_ok_iff {address name : String} {layout : Layout}
    {rest : List (String × Layout)} {bytes out : Bytes} :
    writeLeafFields owner flat address ((name, layout) :: rest) bytes = .ok out ↔
      ∃ here others,
        writeLeaves owner flat (Name.join address name) layout (bytes.take layout.size) = .ok here ∧
        writeLeafFields owner flat address rest (bytes.drop layout.size) = .ok others ∧
          out = here ++ others := by
  simp only [writeLeafFields, bind_eq_ok, pure_eq_ok]
  constructor
  · rintro ⟨here, first, others, second, rfl⟩
    exact ⟨here, others, first, second, rfl⟩
  · rintro ⟨here, others, first, second, rfl⟩
    exact ⟨here, first, others, second, rfl⟩

/-- The arrays of fields are written exactly if those of the first field are and then those of the
rest, with the names that the first field has left. -/
theorem writeArrayFields_cons_eq_ok_iff {address name : String} {layout : Layout}
    {rest : List (String × Layout)} {bytes out : Bytes} {entries left : Entries} :
    writeArrayFields address ((name, layout) :: rest) bytes entries = .ok (out, left) ↔
      ∃ here between others,
        writeArrays (Name.join address name) layout (bytes.take layout.size) entries =
          .ok (here, between) ∧
        writeArrayFields address rest (bytes.drop layout.size) between = .ok (others, left) ∧
          out = here ++ others := by
  simp only [writeArrayFields, bind_eq_ok, pure_eq_ok, Prod.mk.injEq, Prod.exists]
  constructor
  · rintro ⟨here, between, first, others, _, second, rfl, rfl⟩
    exact ⟨here, between, others, first, second, rfl⟩
  · rintro ⟨here, between, others, first, second, rfl⟩
    exact ⟨here, between, first, others, left, second, rfl, rfl⟩

/-! ### What is left -/

mutual

/-- The second pass leaves nothing but what it was given. -/
theorem left_subset_of_writeArrays : ∀ {layout : Layout} {address : String} {bytes out : Bytes}
    {entries left : Entries}, writeArrays address layout bytes entries = .ok (out, left) →
      left ⊆ entries
  | scalar _, _, _, _, _, _, h | enum _, _, _, _, _, _, h | padding _, _, _, _, _, _, h => by
    cases h
    exact List.Subset.refl _
  | record _ _, _, _, _, _, _, h => left_subset_of_writeArrayFields h
  | array _ _ _, _, _, _, _, _, h => by
    rw [writeArrays_array, bind_eq_ok] at h
    obtain ⟨_, -, same⟩ := h
    cases same
    exact List.filter_subset_self _

/-- So do the arrays of consecutive fields. -/
theorem left_subset_of_writeArrayFields : ∀ {fields : List (String × Layout)} {address : String}
    {bytes out : Bytes} {entries left : Entries},
      writeArrayFields address fields bytes entries = .ok (out, left) → left ⊆ entries
  | [], _, _, _, _, _, h => by
    cases h
    exact List.Subset.refl _
  | (_, _) :: _, _, _, _, _, _, h => by
    obtain ⟨_, _, _, first, second, -⟩ := writeArrayFields_cons_eq_ok_iff.1 h
    exact List.Subset.trans (left_subset_of_writeArrayFields second)
      (left_subset_of_writeArrays first)

end

/-! ### Lengths -/

/-- A front of the bytes for several fields, and what is behind it. -/
theorem length_take_drop {bytes : Bytes} {front back : Nat} (h : bytes.length = front + back) :
    (bytes.take front).length = front ∧ (bytes.drop front).length = back := by
  rw [List.length_take, List.length_drop]
  omega

mutual

/-- Writing leaves changes no length. -/
theorem length_writeLeaves : ∀ {layout : Layout} {address : String} {bytes out : Bytes},
    bytes.length = layout.size → writeLeaves owner flat address layout bytes = .ok out →
      out.length = layout.size
  | scalar _, _, _, _, _, h => by
    obtain ⟨value, -, written⟩ := writeLeaves_scalar_eq_ok_iff.1 h
    exact Scalar.length_write written
  | enum _, _, _, _, _, h => by
    rw [writeLeaves, bind_eq_ok] at h
    obtain ⟨value, -, written⟩ := h
    exact EnumType.length_write written
  | padding _, _, _, _, size, h | array _ _ _, _, _, _, size, h => by
    cases h
    exact size
  | record _ _, _, _, _, size, h => length_writeLeafFields size h

/-- Neither does writing those of consecutive fields. -/
theorem length_writeLeafFields : ∀ {fields : List (String × Layout)} {address : String}
    {bytes out : Bytes}, bytes.length = fieldsSize fields →
      writeLeafFields owner flat address fields bytes = .ok out → out.length = fieldsSize fields
  | [], _, _, _, size, h => by
    cases h
    exact size
  | (_, layout) :: rest, _, _, _, size, h => by
    obtain ⟨here, others, first, second, rfl⟩ := writeLeafFields_cons_eq_ok_iff.1 h
    obtain ⟨front, back⟩ := length_take_drop size
    rw [List.length_append, length_writeLeaves front first, length_writeLeafFields back second,
      fieldsSize_cons]

end

mutual

/-- Writing arrays changes no length. -/
theorem length_writeArrays : ∀ {layout : Layout} {address : String} {bytes out : Bytes}
    {entries left : Entries}, bytes.length = layout.size →
      writeArrays address layout bytes entries = .ok (out, left) → out.length = layout.size
  | scalar _, _, _, _, _, _, size, h | enum _, _, _, _, _, _, size, h
  | padding _, _, _, _, _, _, size, h => by
    cases h
    exact size
  | record _ _, _, _, _, _, _, size, h => length_writeArrayFields size h
  | array name capacity element, address, bytes, _, entries, _, size, h => by
    rw [writeArrays_array, bind_eq_ok] at h
    obtain ⟨written, filled, same⟩ := h
    cases same
    -- Each slot is overwritten by as many bytes as it has.
    have kept : written.length = (array name capacity element).size := by
      refine foldlM_invariant (fun b => b.length = (array name capacity element).size) ?_ size filled
      rintro b ⟨slot, flat⟩ - next length step
      obtain ⟨inside, content, put, rfl⟩ := writeSlot_eq_ok_iff.1 step
      have room : Slots.Holds capacity element b := Nat.le_of_eq length.symm
      obtain ⟨leaves, _, first, second, -⟩ := write_eq_ok_iff.1 put
      have filled := length_writeArrays
        (length_writeLeaves (Slots.length_slot room inside) first) second
      rw [Slots.length_setSlot room inside filled, length]
    rw [Slots.recount, Slots.length_setCount (Nat.le_of_eq kept.symm), kept]

/-- Neither does writing those of consecutive fields. -/
theorem length_writeArrayFields : ∀ {fields : List (String × Layout)} {address : String}
    {bytes out : Bytes} {entries left : Entries}, bytes.length = fieldsSize fields →
      writeArrayFields address fields bytes entries = .ok (out, left) →
        out.length = fieldsSize fields
  | [], _, _, _, _, _, size, h => by
    cases h
    exact size
  | (_, layout) :: rest, _, _, _, _, _, size, h => by
    obtain ⟨here, between, others, first, second, rfl⟩ := writeArrayFields_cons_eq_ok_iff.1 h
    obtain ⟨front, back⟩ := length_take_drop size
    rw [List.length_append, length_writeArrays front first, length_writeArrayFields back second,
      fieldsSize_cons]

end

/-- A tree that is accepted fills exactly the bytes of its layout. -/
theorem length_write {layout : Layout} {bytes out : Bytes} (size : bytes.length = layout.size)
    (h : layout.write bytes flat = .ok out) : out.length = layout.size := by
  obtain ⟨leaves, _, first, second, -⟩ := write_eq_ok_iff.1 h
  exact length_writeArrays (length_writeLeaves size first) second

/-! ### Scalars and labels at their places -/

mutual

/-- The first pass puts the value of each scalar and label at its place. -/
theorem encoded_of_writeLeaves {whole : Bytes} : ∀ {layout : Layout} {address : String}
    {offset : Nat} {bytes : Bytes}, bytes.length = layout.size →
      writeLeaves owner flat address layout bytes = .ok (whole.slice offset layout.size) →
      ∀ {place : Field}, place ∈ placesAt address offset layout →
        place.content.isArray = false → place.content.isPadding = false →
          ∃ value, flat.get? place.name = some value ∧ Blob.encoded place.content place.name value =
            .ok (some (whole.slice place.offset place.content.size))
  | scalar kind, _, _, _, _, h, place, mem, _, _ => by
    simp only [placesAt, List.mem_singleton] at mem
    subst mem
    obtain ⟨value, found, written⟩ := writeLeaves_scalar_eq_ok_iff.1 h
    exact ⟨value, found, by rw [Blob.encoded, written]; rfl⟩
  | enum type, _, _, _, _, h, place, mem, _, _ => by
    simp only [placesAt, List.mem_singleton] at mem
    subst mem
    obtain ⟨value, found, written⟩ := writeLeaves_enum_eq_ok_iff.1 h
    exact ⟨value, found, by rw [Blob.encoded, written]; rfl⟩
  | padding _, _, _, _, _, _, _, mem, _, valued => by
    simp only [placesAt, List.mem_singleton] at mem
    subst mem
    cases valued
  | array _ _ _, _, _, _, _, _, _, mem, plain, _ => by
    simp only [placesAt, List.mem_singleton] at mem
    subst mem
    cases plain
  | record _ _, _, _, _, size, h, _, mem, plain, valued =>
    encoded_of_writeLeafFields size h mem plain valued

/-- So it is for the accessors of consecutive fields. -/
theorem encoded_of_writeLeafFields {whole : Bytes} : ∀ {fields : List (String × Layout)}
    {address : String} {offset : Nat} {bytes : Bytes}, bytes.length = fieldsSize fields →
      writeLeafFields owner flat address fields bytes =
        .ok (whole.slice offset (fieldsSize fields)) →
      ∀ {place : Field}, place ∈ placeAccessors address offset fields →
        place.content.isArray = false → place.content.isPadding = false →
          ∃ value, flat.get? place.name = some value ∧ Blob.encoded place.content place.name value =
            .ok (some (whole.slice place.offset place.content.size))
  | [], _, _, _, _, _, _, mem, _, _ => absurd mem List.not_mem_nil
  | (_, layout) :: rest, _, _, _, size, h, _, mem, plain, valued => by
    obtain ⟨here, others, first, second, both⟩ := writeLeafFields_cons_eq_ok_iff.1 h
    obtain ⟨front, back⟩ := length_take_drop size
    obtain ⟨at_here, at_others⟩ := Bytes.slice_eq_append both (length_writeLeaves front first)
    rw [← at_here] at first
    rw [← at_others] at second
    rcases List.mem_append.1 mem with mem | mem
    · exact encoded_of_writeLeaves front first mem plain valued
    · exact encoded_of_writeLeafFields back second mem plain valued

end

mutual

/-- The second pass changes no place but those of arrays. -/
theorem kept_by_writeArrays {before after : Bytes} : ∀ {layout : Layout} {address parent : String}
    {offset : Nat} {entries left : Entries},
    (before.slice offset layout.size).length = layout.size →
      writeArrays address layout (before.slice offset layout.size) entries =
        .ok (after.slice offset layout.size, left) →
      ∀ {place : Field}, place ∈ placesAt parent offset layout → place.content.isArray = false →
        after.slice place.offset place.content.size = before.slice place.offset place.content.size
  | scalar _, _, _, _, _, _, _, h, _, mem, _ | enum _, _, _, _, _, _, _, h, _, mem, _
  | padding _, _, _, _, _, _, _, h, _, mem, _ => by
    simp only [placesAt, List.mem_singleton] at mem
    subst mem
    simp only [writeArrays, Except.ok.injEq, Prod.mk.injEq] at h
    exact h.1.symm
  | array _ _ _, _, _, _, _, _, _, _, _, mem, plain => by
    simp only [placesAt, List.mem_singleton] at mem
    subst mem
    cases plain
  | record _ _, _, _, _, _, _, size, h, _, mem, plain =>
    kept_by_writeArrayFields size h mem plain

/-- So it is for the accessors of consecutive fields. -/
theorem kept_by_writeArrayFields {before after : Bytes} : ∀ {fields : List (String × Layout)}
    {address parent : String} {offset : Nat} {entries left : Entries},
    (before.slice offset (fieldsSize fields)).length = fieldsSize fields →
      writeArrayFields address fields (before.slice offset (fieldsSize fields)) entries =
        .ok (after.slice offset (fieldsSize fields), left) →
      ∀ {place : Field}, place ∈ placeAccessors parent offset fields →
        place.content.isArray = false →
          after.slice place.offset place.content.size =
            before.slice place.offset place.content.size
  | [], _, _, _, _, _, _, _, _, mem, _ => absurd mem List.not_mem_nil
  | (_, layout) :: rest, _, _, _, _, _, size, h, _, mem, plain => by
    obtain ⟨here, between, others, first, second, both⟩ := writeArrayFields_cons_eq_ok_iff.1 h
    obtain ⟨front, back⟩ := length_take_drop size
    obtain ⟨at_here, at_others⟩ := Bytes.slice_eq_append both (length_writeArrays front first)
    rw [fieldsSize_cons, Bytes.take_slice] at front first
    rw [fieldsSize_cons, Bytes.drop_slice] at back second
    rw [← at_here] at first
    rw [← at_others] at second
    rcases List.mem_append.1 mem with mem | mem
    · exact kept_by_writeArrays front first mem plain
    · exact kept_by_writeArrayFields back second mem plain

end

/-- After a tree was written each scalar and label is at its place as the bytes of the value that
the tree gives for it. -/
theorem encoded_of_write {layout : Layout} {bytes out : Bytes} (size : bytes.length = layout.size)
    (h : layout.write bytes flat = .ok out) {place : Field}
    (mem : place ∈ placesAt layout.rootAddress 0 layout) (plain : place.content.isArray = false)
    (valued : place.content.isPadding = false) :
    ∃ value, flat.get? place.name = some value ∧ Blob.encoded place.content place.name value =
      .ok (some (out.slice place.offset place.content.size)) := by
  obtain ⟨leaves, left, first, second, -⟩ := write_eq_ok_iff.1 h
  have filled := length_writeLeaves size first
  have full := length_writeArrays filled second
  rw [← Bytes.slice_all filled] at first second
  rw [← Bytes.slice_all full] at second
  rw [kept_by_writeArrays (by rw [Bytes.slice_all filled, filled]) second mem plain]
  exact encoded_of_writeLeaves size first mem plain valued

end Layout

/-- A 32-bit integer is stored as the integer that is given for it. -/
theorem Scalar.write_int32_eq_ok_iff {field : String} {value : Value} {bytes : Bytes} :
    Scalar.int32.write field value = .ok bytes ↔
      ∃ n, value.int? = some n ∧ Slots.IsWord n.toInt ∧
        bytes = Bytes.ofInt Slots.wordSize n.toInt := by
  have range (n : Int64) : Scalar.int32.holds n.toInt = true ↔ Slots.IsWord n.toInt := by
    simp [Scalar.holds, Scalar.intRange?, Slots.IsWord]
  rw [@write_int_eq_ok_iff int32 field value bytes (by decide) rfl]
  simp only [range]
  rfl

/-- An element that was written starts with the index that is given for it. -/
theorem Layout.exists_index_of_write {element : Layout} {bytes out : Bytes}
    {flat : SortedMap String Value} (starts : element.StartsWithIndex)
    (size : bytes.length = element.size) (written : element.write bytes flat = .ok out) :
    ∃ value n, flat.get? DataType.indexField = some value ∧ value.int? = some n ∧
      Slots.readWord out 0 = n.toInt := by
  obtain ⟨name, rest, rfl⟩ := starts
  have place : (⟨DataType.indexField, 0, .scalar .int32⟩ : Field) ∈ Layout.placesAt ""
      0 (.record name ((DataType.indexField, .scalar .int32) :: rest)) := by
    simp [Layout.placesAt, Layout.placeAccessors]
  obtain ⟨value, given, encoded⟩ := Layout.encoded_of_write size written place rfl rfl
  rw [Blob.encoded, bind_eq_ok] at encoded
  obtain ⟨word, stored, same⟩ := encoded
  obtain ⟨n, number, fits, bytes⟩ := Scalar.write_int32_eq_ok_iff.1 stored
  rw [pure_eq_ok, Option.some.injEq] at same
  refine ⟨value, n, given, number, ?_⟩
  have found : out.slice 0 Slots.wordSize = .ofInt Slots.wordSize n.toInt :=
    same.symm.trans bytes
  rw [Slots.readWord, found, Slots.toInt_word fits]

/-- The index that a tree gives for an element is the one that is written. -/
theorem Layout.readWord_of_write {element : Layout} {bytes out : Bytes}
    {flat : SortedMap String Value} {value : Value} {n : Int64} (starts : element.StartsWithIndex)
    (size : bytes.length = element.size) (written : element.write bytes flat = .ok out)
    (found : flat.get? DataType.indexField = some value) (number : value.int? = some n) :
    Slots.readWord out 0 = n.toInt := by
  obtain ⟨value', n', found', number', word⟩ := exists_index_of_write starts size written
  cases found.symm.trans found'
  cases number.symm.trans number'
  exact word

/-! ### How a tree is refused -/

/-- The error is about one entry of a tree: it is missing, no field has its name, or its value is
not one of its field. -/
def Error.IsAboutEntry : Error → Prop
  | uninitializedField _ _ | unknownField _ _ | typeMismatch _ _ _ | unknownOrdinal _ _
  | unknownLabel _ _ => True
  | _ => False

/-- The error is about one entry of a tree, or about a slot that an array does not have. -/
def Error.IsAboutTree (e : Error) : Prop :=
  e.IsAboutEntry ∨ ∃ slot capacity, e = .slotOutOfRange slot capacity

/-- A number is refused because of its entry only. -/
theorem Scalar.write_failsOnly (kind : Scalar) (field : String) (value : Value) :
    FailsOnly Error.IsAboutEntry (kind.write field value) := by
  intro e failed
  unfold Scalar.write at failed
  split at failed
  · split at failed <;> cases failed
    trivial
  · split at failed <;> cases failed
    trivial
  · split at failed <;> cases failed
    trivial
  · split at failed
    · unfold Scalar.writeInt at failed
      split at failed <;> cases failed
      trivial
    · cases failed
      trivial

/-- So is a label. -/
theorem EnumType.write_failsOnly (type : EnumType) (field : String) (value : Value) :
    FailsOnly Error.IsAboutEntry (type.write field value) := by
  refine .bind ?_ fun n => .ok _
  unfold ordinalOf
  split
  · refine .bind ?_ fun n => .ok _
    intro e failed
    unfold ordinal at failed
    split at failed
    · cases failed
    · split at failed <;> cases failed
      trivial
  · intro e failed
    unfold label at failed
    split at failed
    · split at failed <;> cases failed
      trivial
    · cases failed
  · exact .error trivial

namespace Layout

variable {owner : String} {flat : SortedMap String Value}

/-- A value that is not there is an error about its entry. -/
theorem given_failsOnly (field : String) :
    FailsOnly Error.IsAboutEntry (given owner flat field) := by
  unfold given
  split
  · exact .ok _
  · exact .error trivial

/-- So is a name that is left. -/
theorem checkAllTaken_failsOnly (entries : Entries) :
    FailsOnly Error.IsAboutEntry (checkAllTaken owner entries) := by
  unfold checkAllTaken
  split
  · exact .ok _
  · exact .error trivial

mutual

/-- The first pass fails because of one entry. -/
theorem writeLeaves_failsOnly : ∀ (layout : Layout) (address : String) (bytes : Bytes),
    FailsOnly Error.IsAboutEntry (writeLeaves owner flat address layout bytes)
  | scalar kind, address, _ =>
    .bind (given_failsOnly address) fun value => kind.write_failsOnly address value
  | enum type, address, _ =>
    .bind (given_failsOnly address) fun value => type.write_failsOnly address value
  | padding _, _, bytes | array _ _ _, _, bytes => .ok bytes
  | record _ fields, address, bytes => writeLeafFields_failsOnly fields address bytes

/-- So are the leaves of consecutive fields. -/
theorem writeLeafFields_failsOnly : ∀ (fields : List (String × Layout)) (address : String)
    (bytes : Bytes), FailsOnly Error.IsAboutEntry (writeLeafFields owner flat address fields bytes)
  | [], _, bytes => .ok bytes
  | (name, layout) :: rest, address, _ =>
    .bind (writeLeaves_failsOnly layout (Name.join address name) _) fun _ =>
      .bind (writeLeafFields_failsOnly rest address _) fun _ => .ok _

end

mutual

/-- Arrays are refused because of an entry, or because of a slot. -/
theorem writeArrays_failsOnly : ∀ (layout : Layout) (address : String) (bytes : Bytes)
    (entries : Entries), FailsOnly Error.IsAboutTree (writeArrays address layout bytes entries)
  | scalar _, _, _, _ | enum _, _, _, _ | padding _, _, _, _ => .ok _
  | record _ fields, address, bytes, entries =>
    writeArrayFields_failsOnly fields address bytes entries
  | array _ capacity element, address, bytes, entries => by
    rw [writeArrays_array]
    refine .bind (.foldlM ?_ _ _) fun _ => .ok _
    rintro b ⟨slot, flat⟩
    unfold writeSlot
    split
    · exact .error (Or.inr ⟨slot, capacity, rfl⟩)
    · refine .bind ?_ fun _ => .ok _
      refine .bind ((writeLeaves_failsOnly element _ _).mono fun _ => Or.inl) fun leaves => ?_
      refine .bind (writeArrays_failsOnly element _ leaves _) fun filled => ?_
      exact .bind ((checkAllTaken_failsOnly filled.2).mono fun _ => Or.inl) fun _ => .ok _

/-- So are those of consecutive fields. -/
theorem writeArrayFields_failsOnly : ∀ (fields : List (String × Layout)) (address : String)
    (bytes : Bytes) (entries : Entries),
    FailsOnly Error.IsAboutTree (writeArrayFields address fields bytes entries)
  | [], _, _, _ => .ok _
  | (name, layout) :: rest, address, _, entries =>
    .bind (writeArrays_failsOnly layout (Name.join address name) _ entries) fun here =>
      .bind (writeArrayFields_failsOnly rest address _ here.2) fun _ => .ok _

end

/-- A tree is refused because of one of its entries or because of a slot that there is not. -/
theorem write_failsOnly (layout : Layout) (bytes : Bytes) :
    FailsOnly Error.IsAboutTree (layout.write bytes flat) := by
  refine .bind ((writeLeaves_failsOnly layout _ bytes).mono fun _ => Or.inl) fun leaves => ?_
  refine .bind (writeArrays_failsOnly layout _ leaves _) fun filled => ?_
  exact .bind ((checkAllTaken_failsOnly filled.2).mono fun _ => Or.inl) fun _ => .ok _

end Layout

/-! ### Full arrays -/

/-- The error says that an array has no free slot. -/
def Error.IsFull (e : Error) : Prop := ∃ array capacity, e = .capacityExceeded array capacity

/-- The attempt does not fail because an array is full. -/
def NeverFull {α : Type} (attempt : Except Error α) : Prop :=
  ∀ e, attempt = .error e → ¬e.IsFull

/-- Two steps that never run out of slots do not do so together. -/
theorem NeverFull.bind {α β : Type} {attempt : Except Error α} {next : α → Except Error β}
    (first : NeverFull attempt) (second : ∀ a, NeverFull (next a)) :
    NeverFull (attempt >>= next) :=
  FailsOnly.bind first second

/-- No tree is refused because an array is full: too many elements are a slot out of range. -/
theorem Layout.write_neverFull {flat : SortedMap String Value} (layout : Layout) (bytes : Bytes) :
    NeverFull (layout.write bytes flat) := by
  rintro e failed ⟨array, capacity, rfl⟩
  rcases write_failsOnly layout bytes _ failed with entry | ⟨slot, capacity, other⟩
  · exact entry
  · cases other

end DeviceBlob
