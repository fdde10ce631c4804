import DeviceBlob.Error
import DeviceBlob.SortedMap

/-!
# Enums

An enum gives labels to 32-bit ordinals.  Ordinal 0 and the label `undefined` belong together in
every enum and cannot be declared; the declared ordinals are distinct and so are the labels, so
each can be looked up by the other.
-/

namespace DeviceBlob

/-- An enum: its name and the labels of its ordinals. -/
structure EnumType where
  /-- The name of the enum. -/
  name : String
  /-- The declared labels by ordinal. -/
  labels : SortedMap Int32 String
  /-- Ordinal 0 is not declared. -/
  ordinal_ne_zero : ∀ entry ∈ labels.entries, entry.1 ≠ 0
  /-- A declared label is neither empty nor `undefined`. -/
  label_declarable : ∀ entry ∈ labels.entries, entry.2 ≠ "" ∧ entry.2 ≠ "undefined"
  /-- No label is declared twice. -/
  labels_nodup : labels.values.Nodup

namespace EnumType

/-- The label of ordinal 0 in every enum. -/
def undefinedLabel : String := "undefined"

/-- The enum without labels. -/
def empty (name : String) : EnumType where
  name := name
  labels := ∅
  ordinal_ne_zero := by simp [EmptyCollection.emptyCollection, SortedMap.empty]
  label_declarable := by simp [EmptyCollection.emptyCollection, SortedMap.empty]
  labels_nodup := .nil

/-! ### Declaring labels -/

/-- A new entry is put somewhere among the others. -/
private theorem perm_insertEntry {ordinal : Int32} {label : String} :
    ∀ {entries : List (Int32 × String)}, ordinal ∉ entries.map (·.1) →
      (SortedMap.insertEntry ordinal label entries).Perm ((ordinal, label) :: entries)
  | [], _ => .refl _
  | (other, kept) :: rest, absent => by
    simp only [List.map_cons, List.mem_cons, not_or] at absent
    simp only [SortedMap.insertEntry, absent.1, if_false]
    split
    · exact .refl _
    · exact ((perm_insertEntry absent.2).cons _).trans (.swap _ _ _)

/-- The enum with one label more.  The label and its ordinal must both be new. -/
def addLabel (e : EnumType) (ordinal : Int32) (label : String) : Except Error EnumType :=
  if reserved : ordinal = 0 ∨ label = undefinedLabel ∨ label = "" then
    .error (.invalidSchema (.reservedLabel e.name))
  else if knownLabel : label ∈ e.labels.values then
    .error (.invalidSchema (.duplicateLabel e.name label))
  else if knownOrdinal : ordinal ∈ e.labels.keys then
    .error (.invalidSchema (.duplicateOrdinal e.name ordinal))
  else .ok {
    name := e.name
    labels := e.labels.insert ordinal label
    ordinal_ne_zero := fun entry mem => by
      simp only [not_or] at reserved
      rcases SortedMap.mem_insertEntry mem with rfl | mem
      · exact reserved.1
      · exact e.ordinal_ne_zero entry mem
    label_declarable := fun entry mem => by
      simp only [not_or] at reserved
      rcases SortedMap.mem_insertEntry mem with rfl | mem
      · exact ⟨reserved.2.2, reserved.2.1⟩
      · exact e.label_declarable entry mem
    labels_nodup := by
      have perm := (@perm_insertEntry ordinal label _ knownOrdinal).map (·.2)
      exact perm.nodup_iff.2 (List.nodup_cons.2 ⟨knownLabel, e.labels_nodup⟩) }

/-- The enum that declares the given labels, one after the other. -/
def ofLabels (name : String) (labels : List (Int32 × String)) : Except Error EnumType :=
  labels.foldlM (fun e (ordinal, label) => e.addLabel ordinal label) (empty name)

/-- Labels with their ordinals.  A label without an ordinal of its own gets the one after that of
the label before it.  If the label before it has the greatest ordinal as its own it gets the same
ordinal, and if that ordinal was counted it gets the least one. -/
def numberFrom (next : Int32) : List (String × Option Int32) → List (Int32 × String)
  | [] => []
  | (label, none) :: rest => (next, label) :: numberFrom (next + 1) rest
  | (label, some own) :: rest =>
    let after := if own = Int32.maxValue then own else own + 1
    (own, label) :: numberFrom after rest

/-- The enum that declares labels of which some come without an ordinal.  Counting starts with 1. -/
def ofNumbered (name : String) (labels : List (String × Option Int32)) : Except Error EnumType :=
  ofLabels name (numberFrom 1 labels)

/-! ### Looking up labels and ordinals -/

/-- The label declared for an ordinal; no ordinal outside the 32-bit range has one. -/
def label? (e : EnumType) (ordinal : Int) : Option String :=
  if -2147483648 ≤ ordinal ∧ ordinal < 2147483648 then e.labels.get? (Int32.ofInt ordinal) else none

/-- The label of an ordinal.  An ordinal that is not declared is an error, or `undefined` where
errors are suppressed. -/
def label (e : EnumType) (ordinal : Int) (suppress : Bool) : Except Error String :=
  match e.label? ordinal with
  | some label => .ok label
  | none => if suppress then .ok undefinedLabel else .error (.unknownOrdinal e.name ordinal)

/-- The ordinal of a label. -/
def ordinal (e : EnumType) (label : String) : Except Error Int32 :=
  if label = undefinedLabel then .ok 0
  else match e.labels.entries.find? (·.2 = label) with
    | some (ordinal, _) => .ok ordinal
    | none => .error (.unknownLabel e.name label)

end EnumType

end DeviceBlob
