import DeviceBlob.Blob.Write
import DeviceBlob.Proofs.Buildable
import DeviceBlob.Proofs.Text.Decimal
import DeviceBlob.Proofs.Text.Pieces

/-!
# Names of entries in slots

An array takes the entries whose names continue its own with a slot number and a field
(`slotOf?_eq_some_iff`), among them those that a tree names after its slots (`slotOf?_join`).
A name that looks like a slot of an array, `IsSlotName`, must not be that of another place: then the
array leaves the places of the first pass alone (`slotOf?_eq_none_of_free`) and no entry is taken by
two arrays (`slotOf?_eq_none_of_taken`).
-/

namespace DeviceBlob

namespace Text

/-- The separator of names is not a digit. -/
theorem IsNumeral.not_mem {cs : List Char} (h : IsNumeral cs) : Name.separator ∉ cs := by
  intro mem
  have digit := List.all_eq_true.1 h.2 _ mem
  exact absurd digit (by decide)

end Text

namespace Layout

open Text

/-- The name is that of a slot of the array with the given address, or of something in it. -/
def IsSlotName (address name : String) : Prop :=
  ∃ digits, IsNumeral digits ∧ (name.toList = address.toList ++ Name.separator :: digits ∨
    ∃ rest, name.toList =
      address.toList ++ Name.separator :: (digits ++ Name.separator :: rest))

/-- The name of a slot is longer than that of its array. -/
theorem IsSlotName.length_lt {address name : String} (h : IsSlotName address name) :
    address.toList.length < name.toList.length := by
  obtain ⟨digits, -, same | ⟨rest, same⟩⟩ := h
  · rw [same, List.length_append, List.length_cons]
    omega
  · rw [same, List.length_append, List.length_cons]
    omega

/-! ### Taking names apart -/

/-- The number of a slot is written as a numeral. -/
theorem isNumeral_of_slotNumber? {digits : List Char} {slot : Nat}
    (h : slotNumber? digits = some slot) : IsNumeral digits :=
  isNumeral_of_natural? (Option.filter_eq_some_iff.1 h).1

/-- A name is cut behind a slot number exactly if it is that of a field under the number. -/
theorem exists_cutFirst_iff {inside field : String} {slot : Nat} :
    (∃ digits rest, cutFirst Name.separator inside.toList = some (digits, rest) ∧
      slotNumber? digits = some slot ∧ String.ofList rest = field) ↔
        ∃ digits, slotNumber? digits = some slot ∧
          inside = Name.join (String.ofList digits) field := by
  constructor
  · rintro ⟨digits, rest, cut, number, rfl⟩
    refine ⟨digits, number, ?_⟩
    have numbered := (isNumeral_of_slotNumber? number).ofList_ne_empty
    rw [← String.toList_inj, (cutFirst_eq_some_iff.1 cut).1, Name.toList_join numbered, String.toList_ofList,
      String.toList_ofList]
  · rintro ⟨digits, number, rfl⟩
    have numeral := isNumeral_of_slotNumber? number
    have numbered := numeral.ofList_ne_empty
    refine ⟨digits, field.toList, ?_, number, String.ofList_toList⟩
    rw [Name.toList_join numbered, String.toList_ofList, cutFirst_append_cons numeral.not_mem]

/-- The array with the given address takes the names that continue it with a slot number and a
field. -/
theorem slotOf?_eq_some_iff {address name field : String} {slot : Nat} :
    slotOf? address name = some (slot, field) ↔ ∃ digits, slotNumber? digits = some slot ∧
      name = Name.join address (Name.join (String.ofList digits) field) := by
  have taken : slotOf? address name = some (slot, field) ↔
      ∃ inside, name = Name.join address inside ∧ ∃ digits rest,
        cutFirst Name.separator inside.toList = some (digits, rest) ∧
          slotNumber? digits = some slot ∧ String.ofList rest = field := by
    unfold slotOf?
    by_cases root : address = ""
    · simp [root, Option.bind_eq_some_iff]
    · simp [root, Option.bind_eq_some_iff, Name.within?_eq_some_iff_eq_join root]
  simp only [taken, exists_cutFirst_iff]
  constructor
  · rintro ⟨_, rfl, digits, number, rfl⟩
    exact ⟨digits, number, rfl⟩
  · rintro ⟨digits, number, rfl⟩
    exact ⟨_, rfl, digits, number, rfl⟩

/-- What an array takes below its address. -/
theorem slotOf?_eq_some {address name field : String} {slot : Nat} (named : address ≠ "")
    (h : slotOf? address name = some (slot, field)) :
    ∃ digits, IsNumeral digits ∧ name.toList =
      address.toList ++ Name.separator :: (digits ++ Name.separator :: field.toList) := by
  obtain ⟨digits, number, rfl⟩ := slotOf?_eq_some_iff.1 h
  have numeral := isNumeral_of_slotNumber? number
  have numbered := numeral.ofList_ne_empty
  refine ⟨digits, numeral, ?_⟩
  rw [Name.toList_join named, Name.toList_join numbered, String.toList_ofList]

/-- What an array takes has a separator behind the slot number. -/
theorem separator_mem_of_slotOf? {address name : String} {taken : Nat × String}
    (h : slotOf? address name = some taken) : Name.separator ∈ name.toList := by
  obtain ⟨slot, field⟩ := taken
  obtain ⟨digits, number, rfl⟩ := slotOf?_eq_some_iff.1 h
  have numbered := (isNumeral_of_slotNumber? number).ofList_ne_empty
  have behind : Name.separator ∈ (Name.join (String.ofList digits) field).toList := by
    rw [Name.toList_join numbered]
    exact List.mem_append_right _ List.mem_cons_self
  by_cases root : address = ""
  · rwa [root, Name.join_empty]
  · rw [Name.toList_join root]
    exact List.mem_append_right _ (List.mem_cons_of_mem _ behind)

/-- A slot is written with its decimal digits. -/
theorem toList_toString (slot : Nat) : (toString slot).toList = Nat.toDigits 10 slot := by
  show (Nat.repr slot).toList = _
  simp [Nat.repr]

/-- A slot number is not empty. -/
theorem toString_ne_empty (slot : Nat) : toString slot ≠ "" := by
  intro empty
  have nonempty := (isNumeral_toDigits slot).1
  rw [← toList_toString, empty] at nonempty
  exact nonempty rfl

/-- The entry that a tree names after a slot is taken by the array. -/
theorem slotOf?_join {slot : Nat} (small : slot < 18446744073709551616)
    (address field : String) :
    slotOf? address (Name.join (Name.join address (toString slot)) field) = some (slot, field) := by
  have number : slotNumber? (Nat.toDigits 10 slot) = some slot := by
    simp [slotNumber?, Option.filter, small]
  refine slotOf?_eq_some_iff.2 ⟨_, number, ?_⟩
  rw [Name.join_assoc _ _ _ (toString_ne_empty slot), Nat.toString_eq_ofList_toDigits]

/-! ### Names that are left alone -/

/-- A place whose name is not that of a slot is left alone. -/
theorem slotOf?_eq_none_of_free {address name : String} (named : address ≠ "")
    (free : ¬IsSlotName address name) : slotOf? address name = none := by
  cases taken : slotOf? address name with
  | none => rfl
  | some found =>
    obtain ⟨digits, numeral, same⟩ := slotOf?_eq_some named taken
    exact absurd ⟨digits, numeral, Or.inr ⟨_, same⟩⟩ free

/-- Of two addresses of which the longer one is followed by a separator in a name that the shorter
one takes, the longer one is that of a slot. -/
theorem isSlotName_of_longer {address other : String} {more digits rest rest' : List Char}
    (longer : other.toList = address.toList ++ more) (different : more ≠ [])
    (numeral : IsNumeral digits)
    (same : Name.separator :: (digits ++ Name.separator :: rest) =
      more ++ Name.separator :: rest') : IsSlotName address other := by
  cases more with
  | nil => exact absurd rfl different
  | cons c more =>
    rw [List.cons_append, List.cons.injEq] at same
    obtain ⟨rfl, same⟩ := same
    refine ⟨digits, numeral, ?_⟩
    -- The digits end at a separator, so the longer address cannot end among them.
    rcases List.append_eq_append_iff.1 same with ⟨back, rfl, following⟩ | ⟨back, cut, following⟩
    · cases back with
      | nil => exact Or.inl (by rw [longer, List.append_nil])
      | cons c back =>
        rw [List.cons_append, List.cons.injEq] at following
        obtain ⟨rfl, -⟩ := following
        exact Or.inr ⟨back, longer⟩
    · cases back with
      | nil => exact Or.inl (by rw [longer, cut, List.append_nil])
      | cons c back =>
        rw [List.cons_append, List.cons.injEq] at following
        obtain ⟨rfl, -⟩ := following
        exact absurd (cut ▸ List.mem_append_right _ List.mem_cons_self) numeral.not_mem

/-- No entry is taken by two arrays of which neither has the name of a slot of the other. -/
theorem slotOf?_eq_none_of_taken {address other name : String} {taken : Nat × String}
    (named : address ≠ "") (named' : other ≠ "") (different : address ≠ other)
    (free : ¬IsSlotName address other) (free' : ¬IsSlotName other address)
    (h : slotOf? address name = some taken) : slotOf? other name = none := by
  cases again : slotOf? other name with
  | none => rfl
  | some found =>
    obtain ⟨digits, numeral, here⟩ := slotOf?_eq_some named h
    obtain ⟨digits', numeral', there⟩ := slotOf?_eq_some named' again
    rw [here] at there
    have notEqual : ∀ {more : List Char}, other.toList = address.toList ++ more → more ≠ [] := by
      rintro more longer rfl
      rw [List.append_nil, String.toList_inj] at longer
      exact different longer.symm
    have notEqual' : ∀ {more : List Char}, address.toList = other.toList ++ more → more ≠ [] := by
      rintro more longer rfl
      rw [List.append_nil, String.toList_inj] at longer
      exact different longer
    rcases List.append_eq_append_iff.1 there with ⟨more, longer, same⟩ | ⟨more, longer, same⟩
    · exact absurd (isSlotName_of_longer longer (notEqual longer) numeral same) free
    · exact absurd (isSlotName_of_longer longer (notEqual' longer) numeral' same) free'

end Layout

end DeviceBlob
