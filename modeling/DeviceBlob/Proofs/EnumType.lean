import DeviceBlob.Proofs.Blob.Stored
import DeviceBlob.Proofs.Bytes

/-!
# Enums are codecs of their labels

An enum is made of labels with ordinals exactly if they are `Declarable`: nothing of them comes
twice and nothing is reserved (`exists_ofLabels_iff`).  It then holds these labels and no others
(`ofLabels_eq_ok`), so that labels and ordinals are looked up by each other.  Labels that come
without ordinals are counted from 1, which never gets in the way of declaring them
(`exists_ofNumbered_iff`).

In bytes every number stands for a label.  Writing the label that was read keeps the bytes of a
declared ordinal and of zero, and puts zero in the place of all others (`write_read`).
-/

namespace DeviceBlob.EnumType

variable {type next : EnumType} {ordinal : Int32} {text : String} {pairs : List (Int32 × String)}

/-! ### Declaring labels -/

/-- Labels with ordinals that can be declared together. -/
structure Declarable (pairs : List (Int32 × String)) : Prop where
  /-- The ordinals are pairwise distinct. -/
  ordinals_nodup : (pairs.map (·.1)).Nodup
  /-- The labels are pairwise distinct. -/
  labels_nodup : (pairs.map (·.2)).Nodup
  /-- No ordinal is 0. -/
  ordinal_ne_zero : ∀ pair ∈ pairs, pair.1 ≠ 0
  /-- No label is empty or `undefined`. -/
  label_ne : ∀ pair ∈ pairs, pair.2 ≠ "" ∧ pair.2 ≠ undefinedLabel

/-- One more label can be declared when its number and its text are new, and neither is reserved. -/
theorem declarable_cons_iff :
    Declarable ((ordinal, text) :: pairs) ↔
      ordinal ≠ 0 ∧ text ≠ "" ∧ text ≠ undefinedLabel ∧ ordinal ∉ pairs.map (·.1) ∧
        text ∉ pairs.map (·.2) ∧ Declarable pairs := by
  constructor
  · rintro ⟨ordinals, labels, notZero, fine⟩
    rw [List.map_cons, List.nodup_cons] at ordinals labels
    rw [List.forall_mem_cons] at notZero fine
    exact ⟨notZero.1, fine.1.1, fine.1.2, ordinals.1, labels.1, ordinals.2, labels.2, notZero.2,
      fine.2⟩
  · rintro ⟨notZero, nonempty, defined, newOrdinal, newLabel, rest⟩
    refine ⟨?_, ?_, ?_, ?_⟩
    · exact List.nodup_cons.2 ⟨newOrdinal, rest.ordinals_nodup⟩
    · exact List.nodup_cons.2 ⟨newLabel, rest.labels_nodup⟩
    · exact List.forall_mem_cons.2 ⟨notZero, rest.ordinal_ne_zero⟩
    · exact List.forall_mem_cons.2 ⟨⟨nonempty, defined⟩, rest.label_ne⟩

/-- A label can be added if neither it nor its ordinal is reserved or taken. -/
theorem exists_addLabel_iff :
    (∃ next, type.addLabel ordinal text = .ok next) ↔
      ordinal ≠ 0 ∧ text ≠ "" ∧ text ≠ undefinedLabel ∧ ordinal ∉ type.labels.keys ∧
        text ∉ type.labels.values := by
  unfold addLabel
  by_cases reserved : ordinal = 0 ∨ text = undefinedLabel ∨ text = ""
  · simp only [reserved, dif_pos, reduceCtorEq, exists_false, false_iff]
    rintro ⟨notZero, nonempty, defined, -⟩
    simp_all
  by_cases knownLabel : text ∈ type.labels.values
  · simp [reserved, knownLabel]
  by_cases knownOrdinal : ordinal ∈ type.labels.keys
  · simp [reserved, knownLabel, knownOrdinal]
  simp only [not_or] at reserved
  simp [reserved, knownLabel, knownOrdinal]

/-- Adding a label adds one entry and nothing else. -/
theorem addLabel_eq_ok (added : type.addLabel ordinal text = .ok next) :
    next.name = type.name ∧ ∀ entry, entry ∈ next.labels.entries ↔
      entry = (ordinal, text) ∨ entry ∈ type.labels.entries := by
  have new : ordinal ∉ type.labels.keys := (exists_addLabel_iff.1 ⟨next, added⟩).2.2.2.1
  have built : next.name = type.name ∧ next.labels = type.labels.insert ordinal text := by
    unfold addLabel at added
    split at added
    · cases added
    · split at added
      · cases added
      · cases added
        exact ⟨rfl, rfl⟩
  refine ⟨built.1, ?_⟩
  rintro ⟨other, label⟩
  rw [built.2]
  refine ⟨SortedMap.mem_insertEntry, ?_⟩
  rw [← SortedMap.get?_eq_some_iff, ← SortedMap.get?_eq_some_iff, SortedMap.get?_insert]
  rintro (same | held)
  · cases same
    simp
  · have different : other ≠ ordinal := by
      rintro rfl
      exact new (List.mem_map_of_mem (SortedMap.get?_eq_some_iff.1 held))
    rw [if_neg different, held]

/-- Nothing of the given labels is taken in the enum. -/
def Free (type : EnumType) (pairs : List (Int32 × String)) : Prop :=
  ∀ pair ∈ pairs, pair.1 ∉ type.labels.keys ∧ pair.2 ∉ type.labels.values

/-- After a label has been added, labels are free that were so before, if they differ from it. -/
theorem free_iff_of_addLabel (added : type.addLabel ordinal text = .ok next) :
    next.Free pairs ↔
      type.Free pairs ∧ ordinal ∉ pairs.map (·.1) ∧ text ∉ pairs.map (·.2) := by
  have entries := (addLabel_eq_ok added).2
  have keys : ∀ key, key ∈ next.labels.keys ↔ key = ordinal ∨ key ∈ type.labels.keys := by
    simp [SortedMap.keys, entries, eq_comm]
  have values : ∀ value, value ∈ next.labels.values ↔
      value = text ∨ value ∈ type.labels.values := by
    simp [SortedMap.values, entries, eq_comm]
  simp only [Free, keys, values, not_or, List.mem_map, not_exists, not_and]
  constructor
  · intro free
    refine ⟨fun pair mem => ⟨(free pair mem).1.2, (free pair mem).2.2⟩, ?_, ?_⟩
    · exact fun pair mem => (free pair mem).1.1
    · exact fun pair mem => (free pair mem).2.1
  · rintro ⟨free, ordinals, labels⟩ pair mem
    exact ⟨⟨ordinals pair mem, (free pair mem).1⟩, labels pair mem, (free pair mem).2⟩

/-- Labels can be added one after the other if they can be declared together and are free. -/
theorem exists_foldlM_addLabel_iff : ∀ {pairs : List (Int32 × String)} {type : EnumType},
    (∃ next, pairs.foldlM (fun e (ordinal, label) => e.addLabel ordinal label) type = .ok next) ↔
      Declarable pairs ∧ type.Free pairs
  | [], type => by
    have declarable : Declarable [] := ⟨.nil, .nil, by simp, by simp⟩
    simp [pure, Except.pure, declarable, Free]
  | (ordinal, text) :: rest, type => by
    have taken : type.Free ((ordinal, text) :: rest) ↔
        (ordinal ∉ type.labels.keys ∧ text ∉ type.labels.values) ∧ type.Free rest :=
      List.forall_mem_cons
    simp only [List.foldlM_cons, bind_eq_ok, declarable_cons_iff, taken]
    constructor
    · rintro ⟨last, next, added, others⟩
      obtain ⟨notZero, nonempty, defined, here⟩ := exists_addLabel_iff.1 ⟨next, added⟩
      obtain ⟨declarable, free⟩ := exists_foldlM_addLabel_iff.1 ⟨last, others⟩
      obtain ⟨free, ordinals, labels⟩ := (free_iff_of_addLabel added).1 free
      exact ⟨⟨notZero, nonempty, defined, ordinals, labels, declarable⟩, here, free⟩
    · rintro ⟨⟨notZero, nonempty, defined, ordinals, labels, declarable⟩, here, free⟩
      obtain ⟨next, added⟩ := exists_addLabel_iff.2 ⟨notZero, nonempty, defined, here⟩
      have free := (free_iff_of_addLabel added).2 ⟨free, ordinals, labels⟩
      obtain ⟨last, others⟩ := exists_foldlM_addLabel_iff.2 ⟨declarable, free⟩
      exact ⟨last, next, added, others⟩

/-- Labels make an enum exactly if they can be declared together. -/
theorem exists_ofLabels_iff {name : String} :
    (∃ type, ofLabels name pairs = .ok type) ↔ Declarable pairs := by
  have free : (empty name).Free pairs := fun pair _ => ⟨List.not_mem_nil, List.not_mem_nil⟩
  rw [ofLabels, exists_foldlM_addLabel_iff]
  exact and_iff_left free

/-- What an enum made of labels holds is these labels. -/
theorem mem_entries_of_foldlM_addLabel : ∀ {pairs : List (Int32 × String)} {type last : EnumType},
    pairs.foldlM (fun e (ordinal, label) => e.addLabel ordinal label) type = .ok last →
      last.name = type.name ∧ ∀ entry, entry ∈ last.labels.entries ↔
        entry ∈ pairs ∨ entry ∈ type.labels.entries
  | [], _, _, made => by
    cases made
    simp
  | (ordinal, text) :: rest, type, last, made => by
    rw [List.foldlM_cons, bind_eq_ok] at made
    obtain ⟨next, added, others⟩ := made
    obtain ⟨named, entries⟩ := addLabel_eq_ok added
    obtain ⟨named', entries'⟩ := mem_entries_of_foldlM_addLabel others
    refine ⟨named'.trans named, fun entry => ?_⟩
    rw [entries', entries, List.mem_cons]
    tauto

/-- What is made of labels has just these. -/
theorem ofLabels_eq_ok {name : String} (made : ofLabels name pairs = .ok type) :
    type.name = name ∧ ∀ entry, entry ∈ type.labels.entries ↔ entry ∈ pairs := by
  obtain ⟨named, entries⟩ := mem_entries_of_foldlM_addLabel made
  refine ⟨named, fun entry => ?_⟩
  rw [entries]
  simp [empty, EmptyCollection.emptyCollection, SortedMap.empty]

/-! ### Counting labels -/

/-- Counting puts ordinals to labels and leaves the labels as they are. -/
theorem map_snd_numberFrom : ∀ (next : Int32) (labels : List (String × Option Int32)),
    (numberFrom next labels).map (·.2) = labels.map (·.1)
  | _, [] => rfl
  | next, (label, none) :: rest => by
    rw [numberFrom, List.map_cons, List.map_cons, map_snd_numberFrom]
  | _, (label, some own) :: rest => by
    rw [numberFrom, List.map_cons, List.map_cons, map_snd_numberFrom]

/-- Labels without ordinals of their own get one after the other. -/
theorem map_fst_numberFrom : ∀ (next : Int32) (labels : List String),
    (numberFrom next (labels.map (·, none))).map (·.1) =
      (List.range labels.length).map fun position => next + .ofNat position
  | _, [] => rfl
  | next, label :: rest => by
    have step (position : Nat) : next + 1 + .ofNat position = next + .ofNat (position + 1) := by
      rw [Int32.ofNat_add, Int32.add_assoc, Int32.add_comm 1]
      rfl
    rw [List.map_cons, numberFrom, List.map_cons, map_fst_numberFrom, List.length_cons,
      List.range_succ_eq_map, List.map_cons, List.map_map]
    congr 1
    · exact (Int32.add_zero next).symm
    · exact List.map_congr_left fun position _ => step position

/-- What is counted from 1 is what it says, before the greatest ordinal is passed. -/
theorem toInt_count {position : Nat} (small : position < 2147483647) :
    (1 + Int32.ofNat position).toInt = position + 1 := by
  have own : (Int32.ofNat position).toInt = position := Int32.toInt_ofNat_of_lt (by omega)
  rw [Int32.toInt_add, own, Int32.toInt_one, Int.bmod_eq_of_le (by omega) (by omega)]
  omega

/-- Labels without ordinals make an enum exactly if they are pairwise distinct and none of them is
empty or `undefined`, unless there are more of them than positive ordinals. -/
theorem exists_ofNumbered_iff {name : String} {labels : List String}
    (few : labels.length < 2147483648) :
    (∃ type, ofNumbered name (labels.map (·, none)) = .ok type) ↔
      labels.Nodup ∧ ∀ label ∈ labels, label ≠ "" ∧ label ≠ undefinedLabel := by
  have texts : (numberFrom 1 (labels.map (·, none))).map (·.2) = labels := by
    rw [map_snd_numberFrom, List.map_map]
    exact List.map_id labels
  have ordinals := map_fst_numberFrom 1 labels
  rw [ofNumbered, exists_ofLabels_iff]
  constructor
  · intro declarable
    refine ⟨texts ▸ declarable.labels_nodup, fun label mem => ?_⟩
    rw [← texts] at mem
    obtain ⟨pair, held, rfl⟩ := List.mem_map.1 mem
    exact declarable.label_ne pair held
  · rintro ⟨nodup, fine⟩
    refine ⟨?_, by rwa [texts], fun pair held => ?_, fun pair held => ?_⟩
    · rw [ordinals]
      refine List.Nodup.map_on ?_ List.nodup_range
      intro position mem other mem' same
      have here := @toInt_count position (by have := List.mem_range.1 mem; omega)
      have there := @toInt_count other (by have := List.mem_range.1 mem'; omega)
      rw [same, there] at here
      omega
    · have counted : pair.1 ∈ (numberFrom 1 (labels.map (·, none))).map (·.1) :=
        List.mem_map_of_mem held
      rw [ordinals] at counted
      obtain ⟨position, mem, same⟩ := List.mem_map.1 counted
      have value := @toInt_count position (by have := List.mem_range.1 mem; omega)
      intro zero
      rw [same, zero, Int32.toInt_zero] at value
      omega
    · exact fine pair.2 (texts ▸ List.mem_map_of_mem held)
/-! ### Looking up labels and ordinals -/

/-- A declared label and its ordinal are looked up by each other. -/
theorem lookup_of_entry (mem : (ordinal, text) ∈ type.labels.entries) :
    type.ordinal text = .ok ordinal ∧ ∀ suppress, type.label ordinal.toInt suppress = .ok text := by
  refine ⟨ordinal_of_entry mem, ?_⟩
  intro suppress
  rw [label, label?_eq_some_iff.2 ⟨ordinal, rfl, mem⟩]

/-- An ordinal that is not declared has no label, or `undefined` where errors are suppressed. -/
theorem label_of_undeclared {n : Int}
    (undeclared : ∀ entry ∈ type.labels.entries, entry.1.toInt ≠ n) :
    type.label n false = .error (.unknownOrdinal type.name n) ∧
      type.label n true = .ok undefinedLabel := by
  have none : type.label? n = none := by
    rw [Option.eq_none_iff_forall_ne_some]
    intro text found
    obtain ⟨ordinal, rfl, mem⟩ := label?_eq_some_iff.1 found
    exact undeclared _ mem rfl
  simp [label, none]

/-- A label that is neither declared nor `undefined` has no ordinal. -/
theorem ordinal_of_undeclared (defined : text ≠ undefinedLabel)
    (undeclared : ∀ entry ∈ type.labels.entries, entry.2 ≠ text) :
    type.ordinal text = .error (.unknownLabel type.name text) := by
  have none : type.labels.entries.find? (·.2 = text) = none := by
    simpa [List.find?_eq_none] using undeclared
  rw [EnumType.ordinal, if_neg defined, none]

/-! ### Bytes -/

/-- The label that is read from four bytes is written as these bytes if their ordinal is declared,
and as zeros if it is not. -/
theorem write_read (type : EnumType) {bytes : Bytes} (length : bytes.length = 4) (field : String) :
    type.write field (type.read bytes) =
      .ok (if (type.label? bytes.toInt).isSome then bytes else .zeros 4) := by
  cases found : type.label? bytes.toInt with
  | none =>
    have undefined : type.read bytes = type.read (.zeros 4) := by
      rw [read, found, show Bytes.zeros 4 = .ofInt 4 0 by decide, read_zero]
      rfl
    rw [undefined]
    exact type.stored_zeros field
  | some text =>
    obtain ⟨ordinal, word, mem⟩ := label?_eq_some_iff.1 found
    rw [Bytes.eq_ofInt_of_toInt length word]
    exact stored_of_entry mem field

/-- What is written for the label that was read stands for the same label. -/
theorem read_of_write_read {bytes written : Bytes} (length : bytes.length = 4) {field : String}
    (again : type.write field (type.read bytes) = .ok written) :
    type.read written = type.read bytes := by
  rw [type.write_read length] at again
  cases found : type.label? bytes.toInt with
  | none =>
    simp only [found, Option.isSome_none, Bool.false_eq_true, if_false, Except.ok.injEq] at again
    rw [← again, show Bytes.zeros 4 = .ofInt 4 0 by decide, read_zero, read, found]
    rfl
  | some text =>
    simp only [found, Option.isSome_some, if_true, Except.ok.injEq] at again
    rw [again]

/-- A number has a label if an ordinal with this number is declared. -/
theorem isSome_label?_iff {n : Int} :
    (type.label? n).isSome = true ↔ ∃ entry ∈ type.labels.entries, entry.1.toInt = n := by
  simp only [Option.isSome_iff_exists, label?_eq_some_iff, Prod.exists]
  constructor
  · rintro ⟨text, ordinal, rfl, mem⟩
    exact ⟨ordinal, text, mem, rfl⟩
  · rintro ⟨ordinal, text, mem, rfl⟩
    exact ⟨text, ordinal, rfl, mem⟩

/-! ### The codec -/

/-- The enum is the codec of the given labels. -/
structure IsCodec (type : EnumType) (pairs : List (Int32 × String)) : Prop where
  /-- A declared ordinal and its label are looked up by each other. -/
  declared : ∀ ordinal text, (ordinal, text) ∈ pairs →
    type.ordinal text = .ok ordinal ∧ ∀ suppress, type.label ordinal.toInt suppress = .ok text
  /-- The label `undefined` stands for 0. -/
  undefined : type.ordinal undefinedLabel = .ok 0
  /-- No other label has an ordinal. -/
  noOrdinal : ∀ text, text ≠ undefinedLabel → (∀ pair ∈ pairs, pair.2 ≠ text) →
    type.ordinal text = .error (.unknownLabel type.name text)
  /-- No other number has a label, but where errors are suppressed it is `undefined`. -/
  noLabel : ∀ n : Int, (∀ pair ∈ pairs, pair.1.toInt ≠ n) →
    type.label n false = .error (.unknownOrdinal type.name n) ∧
      type.label n true = .ok undefinedLabel
  /-- The label that is read from the bytes of a field can be written back, and it is read again.
  Nothing changes if the number in the bytes is 0 or declared, and otherwise it becomes 0. -/
  writesBack : ∀ (bytes : Bytes) (offset : Nat) (field : String), offset + 4 ≤ bytes.length →
    ∃ written, type.write field (type.read (bytes.slice offset 4)) = .ok written ∧
      type.read ((bytes.splice offset written).slice offset 4) =
        type.read (bytes.slice offset 4) ∧
      bytes.splice offset written =
        if (bytes.slice offset 4).toInt = 0 ∨
            ∃ pair ∈ pairs, pair.1.toInt = (bytes.slice offset 4).toInt then bytes
        else bytes.splice offset (.zeros 4)

/-- Every enum is the codec of its labels. -/
theorem isCodec_of_mem_iff (held : ∀ pair, pair ∈ type.labels.entries ↔ pair ∈ pairs) :
    type.IsCodec pairs where
  declared ordinal text mem := lookup_of_entry ((held _).2 mem)
  undefined := by simp [EnumType.ordinal]
  noOrdinal text defined undeclared :=
    ordinal_of_undeclared defined fun entry mem => undeclared entry ((held entry).1 mem)
  noLabel n undeclared :=
    label_of_undeclared fun entry mem => undeclared entry ((held entry).1 mem)
  writesBack bytes offset field within := by
    have length : (bytes.slice offset 4).length = 4 := Bytes.length_slice within
    have again := type.write_read length field
    refine ⟨_, again, ?_, ?_⟩
    · rw [Bytes.slice_splice (by omega) (length_write again)]
      exact read_of_write_read length again
    · have unchanged : bytes.splice offset (bytes.slice offset 4) = bytes :=
        Bytes.splice_of_slice (by rw [length])
      simp only [isSome_label?_iff, held]
      by_cases declared : ∃ pair ∈ pairs, pair.1.toInt = (bytes.slice offset 4).toInt
      · rw [if_pos declared, if_pos (Or.inr declared), unchanged]
      · rw [if_neg declared]
        by_cases zero : (bytes.slice offset 4).toInt = 0
        · have zeros : bytes.slice offset 4 = .zeros 4 := Bytes.eq_ofInt_of_toInt length zero
          rw [if_pos (Or.inl zero), ← zeros, unchanged]
        · rw [if_neg (not_or.2 ⟨zero, declared⟩)]

/-- Labels with ordinals make an enum exactly if the ordinals are pairwise distinct and so are the
labels, no ordinal is 0 and no label is empty or `undefined`; and the enum is then their codec. -/
theorem codec_of_labels (name : String) (pairs : List (Int32 × String)) :
    ((∃ type, ofLabels name pairs = .ok type) ↔ Declarable pairs) ∧
      ∀ type, ofLabels name pairs = .ok type → type.name = name ∧ type.IsCodec pairs := by
  refine ⟨exists_ofLabels_iff, ?_⟩
  intro type made
  obtain ⟨named, held⟩ := ofLabels_eq_ok made
  exact ⟨named, isCodec_of_mem_iff held⟩

/-- Labels for the states of a motor. -/
def motorLabels : List (Int32 × String) := [(-3, "stalled"), (7, "idle"), (1, "moving")]

/-- The states of a motor make an enum.  In the bytes of a field with the undeclared ordinal 5 zeros
are put when what was read is written back, and the bytes around the field stay. -/
theorem codec_of_labels_motor :
    Declarable motorLabels ∧ ∃ type, ofLabels "Motor" motorLabels = .ok type ∧
      type.name = "Motor" ∧ type.IsCodec motorLabels ∧
      ∃ written, type.write "state" (type.read (Bytes.slice [9, 5, 0, 0, 0, 9] 1 4)) = .ok written ∧
        Bytes.splice [9, 5, 0, 0, 0, 9] 1 written = [9, 0, 0, 0, 0, 9] := by
  have declarable : Declarable motorLabels := ⟨by decide, by decide, by decide, by decide⟩
  obtain ⟨accepted, codec⟩ := codec_of_labels "Motor" motorLabels
  obtain ⟨type, made⟩ := accepted.2 declarable
  obtain ⟨named, isCodec⟩ := codec type made
  obtain ⟨written, again, -, changed⟩ := isCodec.writesBack [9, 5, 0, 0, 0, 9] 1 "state" (by decide)
  refine ⟨declarable, type, made, named, isCodec, written, again, ?_⟩
  rw [changed]
  decide

end DeviceBlob.EnumType
