import DeviceBlob.Blob.Codec
import DeviceBlob.Proofs.Number.Single
import DeviceBlob.Proofs.Outcome
import DeviceBlob.Proofs.SortedMap

/-!
# Single values are read back as they were written

A scalar or an enum takes the values of its own kind (`Scalar.Takes`, `EnumType.Takes`); each of
these can be written, and what is read from the bytes is the value again (`Scalar.exists_write`,
`EnumType.exists_write`).  Patterns that are not numbers are told apart by no reader, so trees are
compared after `Value.quiet` has made them one.
-/

namespace DeviceBlob

/-! ### Trees up to the pattern of what is not a number -/

/-- The number itself, or one and the same pattern for all that are not numbers. -/
def Double.quiet (x : Double) : Double := if x.isNaN then ⟨9221120237041090560⟩ else x

namespace Value

mutual

/-- The tree with one and the same pattern for all that are not numbers. -/
def quiet : Value → Value
  | float x => float x.quiet
  | list items => list (quietItems items)
  | map entries => map (quietEntries entries)
  | leaf => leaf

/-- The same for the items of a list. -/
def quietItems : List Value → List Value
  | [] => []
  | item :: rest => quiet item :: quietItems rest

/-- The same for the entries of a map. -/
def quietEntries : List (String × Value) → List (String × Value)
  | [] => []
  | (key, item) :: rest => (key, quiet item) :: quietEntries rest

end

/-- The items of a list are made quiet one by one. -/
theorem quietItems_eq_map : ∀ (items : List Value), quietItems items = items.map quiet
  | [] => rfl
  | item :: rest => congrArg (quiet item :: ·) (quietItems_eq_map rest)

/-- The entries of a record are made quiet one by one. -/
theorem quietEntries_eq_map : ∀ (entries : List (String × Value)),
    quietEntries entries = entries.map fun entry => (entry.1, entry.2.quiet)
  | [] => rfl
  | (key, item) :: rest => congrArg ((key, quiet item) :: ·) (quietEntries_eq_map rest)

end Value

/-! ### Scalars -/

namespace Scalar

/-- The value is one of the kind: a truth value, an integer in range or a number that the kind can
hold. -/
def Takes (kind : Scalar) : Value → Prop
  | .bool _ => kind = bool
  | .int n => kind ≠ bool ∧ kind.isFloat = false ∧ kind.holds n.toInt = true
  | .float x => kind = float64 ∨ (kind = float32 ∧ x.IsSingle)
  | _ => False

/-- An integer of an unsigned kind is found again in its bytes. -/
theorem toNat_ofInt {width : Nat} {n : Int} (low : 0 ≤ n) (high : n < Bytes.range width) :
    Bytes.toNat (Bytes.ofInt width n) = n.toNat := by
  rw [Bytes.ofInt, Bytes.toNat_ofNat, Int.emod_eq_of_lt low high, Nat.mod_eq_of_lt]
  omega

/-- An integer kind stores the integers in its range. -/
theorem write_int_eq_ok_iff {kind : Scalar} {field : String} {value : Value} {bytes : Bytes}
    (integer : kind ≠ bool) (exact : kind.isFloat = false) :
    kind.write field value = .ok bytes ↔
      ∃ n, value.int? = some n ∧ kind.holds n.toInt = true ∧ bytes = .ofInt kind.width n.toInt := by
  have opened : kind.write field value = value.int?.elim (.error (kind.mismatch field value))
      fun n => kind.writeInt field n.toInt := by
    cases kind with
    | bool => exact absurd rfl integer
    | float32 | float64 => exact absurd exact (by decide)
    | _ =>
      unfold Scalar.write
      cases value.int? <;> rfl
  rw [opened]
  cases value.int? with
  | none => simp
  | some n =>
    simp only [Option.elim_some, writeInt, Option.some.injEq, exists_eq_left']
    split
    · next inside => simp [inside, eq_comm]
    · next beyond => simp [beyond]

/-- A truth value is read from the byte that is written for it. -/
theorem read_bool (truth : Bool) :
    bool.read [if truth then 1 else 0] = .bool truth := by
  cases truth <;> rfl

/-- A truth value is a number that every integer kind holds. -/
theorem holds_flag {kind : Scalar} (truth : Bool) :
    kind.holds (if truth then (1 : Int64) else 0).toInt = true := by
  cases kind <;> cases truth <;> decide

/-- What an integer kind reads from the bytes of an integer in its range. -/
theorem read_ofInt {kind : Scalar} {n : Int64} (integer : kind ≠ bool)
    (exact : kind.isFloat = false) (holds : kind.holds n.toInt = true) :
    kind.read (.ofInt kind.width n.toInt) = .int n := by
  have unsigned (low : 0 ≤ n.toInt) : Int64.ofNat n.toInt.toNat = n := by
    rw [← Int64.ofInt_eq_ofNat, Int.toNat_of_nonneg low, Int64.ofInt_toInt]
  cases kind with
  | bool => exact absurd rfl integer
  | float32 | float64 => exact absurd exact (by decide)
  | uint8 | uint16 | uint32 | uint64 =>
    simp only [Scalar.holds, intRange?, Bool.and_eq_true, decide_eq_true_eq] at holds
    show Value.int (.ofNat (Bytes.toNat (.ofInt _ n.toInt))) = .int n
    rw [toNat_ofInt holds.1 (by simp only [width, Bytes.range]; omega), unsigned holds.1]
  | int8 | int16 | int32 | int64 =>
    simp only [Scalar.holds, intRange?, Bool.and_eq_true, decide_eq_true_eq] at holds
    show Value.int (.ofInt (Bytes.toInt (.ofInt _ n.toInt))) = .int n
    rw [Bytes.toInt_ofInt (by simp only [width, Bytes.range]; omega)
      (by simp only [width, Bytes.range]; omega), Int64.ofInt_toInt]

/-- A single number is read back rounded. -/
theorem read_ofNat_float32 (x : Double) :
    float32.read (.ofNat 4 x.toSingleBits.toNat) = .float x.toSingle := by
  have small := x.toSingleBits.toNat_lt
  show Value.float (.ofSingleBits (.ofNat (Bytes.toNat (.ofNat 4 x.toSingleBits.toNat)))) = _
  rw [Bytes.toNat_ofNat, Nat.mod_eq_of_lt (by simp only [Bytes.range]; omega), UInt32.ofNat_toNat]
  rfl

/-- A number that single precision can hold is read back. -/
theorem read_float32 {x : Double} (h : x.IsSingle) :
    (float32.read (.ofNat 4 x.toSingleBits.toNat)).quiet = (Value.float x).quiet := by
  rw [read_ofNat_float32]
  rcases Double.toSingle_of_isSingle h with same | ⟨notNumber, notNumber'⟩
  · rw [same]
  · show Value.float x.toSingle.quiet = Value.float x.quiet
    rw [Double.quiet, Double.quiet, if_pos notNumber, if_pos notNumber']

/-- A double number is read back as it is. -/
theorem read_float64 (x : Double) : float64.read (.ofNat 8 x.bits.toNat) = .float x := by
  have small := x.bits.toNat_lt
  show Value.float ⟨.ofNat (Bytes.toNat (.ofNat 8 x.bits.toNat))⟩ = .float x
  rw [Bytes.toNat_ofNat, Nat.mod_eq_of_lt (by simp only [Bytes.range]; omega), UInt64.ofNat_toNat]

/-- A value of its kind can be written to a scalar and is read back. -/
theorem exists_write {kind : Scalar} {value : Value} (h : kind.Takes value) (field : String) :
    ∃ bytes, kind.write field value = .ok bytes ∧ (kind.read bytes).quiet = value.quiet := by
  cases value with
  | bool truth =>
    obtain rfl : kind = Scalar.bool := h
    exact ⟨_, rfl, congrArg Value.quiet (read_bool truth)⟩
  | int n =>
    obtain ⟨integer, exact, holds⟩ := h
    have written : kind.write field (.int n) = .ok (.ofInt kind.width n.toInt) :=
      (write_int_eq_ok_iff integer exact).2 ⟨n, rfl, holds, rfl⟩
    refine ⟨_, written, ?_⟩
    rw [read_ofInt integer exact holds]
  | float x =>
    rcases h with rfl | ⟨rfl, single⟩
    · exact ⟨_, rfl, congrArg Value.quiet (read_float64 x)⟩
    · exact ⟨_, rfl, read_float32 single⟩
  | label _ | list _ | map _ => exact h.elim

end Scalar

/-! ### Enums -/

namespace EnumType

/-- The value is a label of the enum, declared or `undefined`. -/
def Takes (type : EnumType) : Value → Prop
  | .label text => text = undefinedLabel ∨ text ∈ type.labels.values
  | _ => False

/-- Ordinal 0 stands for `undefined`. -/
theorem label?_zero (type : EnumType) : type.label? 0 = none := by
  have absent : type.labels.get? 0 = none := by
    rw [SortedMap.get?_eq_none_iff]
    intro text mem
    exact type.ordinal_ne_zero _ mem rfl
  show (if _ then type.labels.get? 0 else none) = none
  rw [absent]
  exact ite_self _

variable {type : EnumType} {text : String} {ordinal : Int32}

/-- Zero is read as the label that stands for no label. -/
theorem read_zero (type : EnumType) : type.read (.ofInt 4 0) = .label undefinedLabel := by
  have word : Bytes.toInt (.ofInt 4 0) = 0 := by decide
  rw [read, word, label?_zero]
  rfl

/-- An ordinal has a label if it is declared. -/
theorem label?_eq_some_iff {n : Int} : type.label? n = some text ↔
    ∃ ordinal, n = ordinal.toInt ∧ (ordinal, text) ∈ type.labels.entries := by
  unfold label?
  constructor
  · intro found
    split at found
    · next range =>
      have whole : (Int32.ofInt n).toInt = n := Int32.toInt_ofInt_of_le (by omega) (by omega)
      exact ⟨_, whole.symm, SortedMap.get?_eq_some_iff.1 found⟩
    · cases found
  · rintro ⟨ordinal, rfl, mem⟩
    have low := ordinal.le_toInt
    have high := ordinal.toInt_lt
    rw [if_pos ⟨by omega, by omega⟩, Int32.ofInt_toInt]
    exact SortedMap.get?_eq_some_iff.2 mem

/-- A label is read from the bytes of its ordinal. -/
theorem read_of_entry (mem : (ordinal, text) ∈ type.labels.entries) :
    type.read (.ofInt 4 ordinal.toInt) = .label text := by
  have low := ordinal.le_toInt
  have high := ordinal.toInt_lt
  have word : Bytes.toInt (.ofInt 4 ordinal.toInt) = ordinal.toInt :=
    Bytes.toInt_ofInt (by simp only [Bytes.range]; omega) (by simp only [Bytes.range]; omega)
  rw [read, word, label?_eq_some_iff.2 ⟨ordinal, rfl, mem⟩]
  rfl

/-- The ordinal of a declared label is one that the label is declared for. -/
theorem exists_ordinal (declared : text ∈ type.labels.values) :
    ∃ ordinal, type.ordinal text = .ok ordinal ∧ (ordinal, text) ∈ type.labels.entries := by
  obtain ⟨entry, mem, rfl⟩ := List.mem_map.1 declared
  have declarable := (type.label_declarable entry mem).2
  cases found : type.labels.entries.find? (·.2 = entry.2) with
  | none =>
    rw [List.find?_eq_none] at found
    exact absurd (decide_eq_true rfl) (found entry mem)
  | some first =>
    have same : first.2 = entry.2 := by simpa using List.find?_some found
    refine ⟨first.1, ?_, ?_⟩
    · unfold EnumType.ordinal undefinedLabel
      rw [if_neg declarable, found]
    · rw [← same]
      exact List.mem_of_find?_eq_some found

/-- No other ordinal has the label of a declared one. -/
theorem ordinal_of_entry (mem : (ordinal, text) ∈ type.labels.entries) :
    type.ordinal text = .ok ordinal := by
  obtain ⟨other, looked, among⟩ := exists_ordinal (List.mem_map_of_mem mem)
  have same := List.inj_on_of_nodup_map type.labels_nodup among mem rfl
  cases same
  exact looked

/-- A label has an ordinal if it is declared or `undefined`. -/
theorem ordinal_eq_ok (h : type.ordinal text = .ok ordinal) :
    (text = undefinedLabel ∧ ordinal = 0) ∨ (ordinal, text) ∈ type.labels.entries := by
  unfold EnumType.ordinal at h
  split at h
  · next undefined =>
    cases h
    exact Or.inl ⟨undefined, rfl⟩
  · split at h
    · next found =>
      cases h
      have same := List.find?_some found
      rw [decide_eq_true_eq] at same
      subst same
      exact Or.inr (List.mem_of_find?_eq_some found)
    · cases h

/-- An ordinal is given as itself if it is zero or declared. -/
theorem ordinalOf_int_eq_ok {field : String} {n : Int64} {result : Int} :
    type.ordinalOf field (.int n) = .ok result ↔
      result = n.toInt ∧ (n.toInt = 0 ∨ ∃ text, type.label? n.toInt = some text) := by
  by_cases zero : n.toInt = 0
  · simp [ordinalOf, zero, pure, Except.pure, eq_comm]
  · unfold ordinalOf
    simp only [ne_eq, zero, not_false_eq_true, if_true, false_or, label]
    cases type.label? n.toInt with
    | none => simp [bind, Except.bind]
    | some text => simp [bind, Except.bind, pure, Except.pure, eq_comm]

/-- A label can be written to an enum and is read back. -/
theorem exists_write {type : EnumType} {value : Value} (h : type.Takes value) (field : String) :
    ∃ bytes, type.write field value = .ok bytes ∧ (type.read bytes).quiet = value.quiet := by
  cases value with
  | label text =>
    rcases h with rfl | declared
    · exact ⟨.ofInt 4 0, rfl, congrArg Value.quiet type.read_zero⟩
    · obtain ⟨ordinal, looked, entry⟩ := exists_ordinal declared
      have written : type.write field (.label text) = .ok (.ofInt 4 ordinal.toInt) := by
        simp only [write, ordinalOf, looked, ok_bind]
        rfl
      exact ⟨_, written, congrArg Value.quiet (read_of_entry entry)⟩
  | bool _ | int _ | float _ | list _ | map _ => exact h.elim

end EnumType

end DeviceBlob
