/-!
# Finite maps kept in key order

A `SortedMap` lists its entries by increasing key, each key once, so two maps with the same entries
are equal and the order in which they were filled leaves no trace.  `insert` replaces the value of a
key that is there.  Main statements: `get?_insert` says what a map holds after an insertion, and
`get?_eq_some_iff` that it holds its entries and nothing else.
-/

namespace DeviceBlob

/-- A strict order in which any two different keys come one before the other. -/
class KeyOrder (κ : Type) [LT κ] : Prop where
  irrefl : ∀ key : κ, ¬key < key
  trans : ∀ {a b c : κ}, a < b → b < c → a < c
  eq_of_not_lt : ∀ {a b : κ}, ¬a < b → ¬b < a → a = b

instance : KeyOrder String where
  irrefl := String.lt_irrefl
  trans := String.lt_trans
  eq_of_not_lt := fun notBefore notAfter =>
    String.le_antisymm (String.not_lt.1 notAfter) (String.not_lt.1 notBefore)

instance : KeyOrder Nat where
  irrefl := Nat.lt_irrefl
  trans := Nat.lt_trans
  eq_of_not_lt := by omega

instance : KeyOrder Int32 where
  irrefl _ := Int32.lt_irrefl
  trans := Int32.lt_trans
  eq_of_not_lt := fun notBefore notAfter =>
    Int32.le_antisymm (Int32.not_lt.1 notAfter) (Int32.not_lt.1 notBefore)

/-- A finite map from keys to values, listed by increasing key. -/
@[ext]
structure SortedMap (κ : Type) [LT κ] (α : Type) where
  /-- The entries by increasing key. -/
  entries : List (κ × α)
  /-- Every key is smaller than those after it. -/
  sorted : entries.Pairwise fun a b => a.1 < b.1

namespace SortedMap

variable {κ α β : Type} [LT κ]

instance [DecidableEq κ] [DecidableEq α] : DecidableEq (SortedMap κ α) := fun a b =>
  decidable_of_iff (a.entries = b.entries) SortedMap.ext_iff.symm

/-- The map without entries. -/
def empty : SortedMap κ α := ⟨[], .nil⟩

instance : EmptyCollection (SortedMap κ α) := ⟨empty⟩

instance : Inhabited (SortedMap κ α) := ⟨empty⟩

/-- The number of entries. -/
def size (m : SortedMap κ α) : Nat := m.entries.length

/-- The map has no entries. -/
def isEmpty (m : SortedMap κ α) : Bool := m.entries.isEmpty

/-- The keys in order. -/
def keys (m : SortedMap κ α) : List κ := m.entries.map (·.1)

/-- The values in the order of their keys. -/
def values (m : SortedMap κ α) : List α := m.entries.map (·.2)

/-- The value of a key. -/
def get? [DecidableEq κ] (m : SortedMap κ α) (key : κ) : Option α := m.entries.lookup key

/-- The key has a value. -/
def contains [DecidableEq κ] (m : SortedMap κ α) (key : κ) : Bool := (m.get? key).isSome

/-! ### Insertion -/

/-- Entries with one more, put at its place in the order. -/
def insertEntry [DecidableEq κ] [DecidableLT κ] (key : κ) (value : α) :
    List (κ × α) → List (κ × α)
  | [] => [(key, value)]
  | (other, kept) :: rest =>
    if key = other then (key, value) :: rest
    else if key < other then (key, value) :: (other, kept) :: rest
    else (other, kept) :: insertEntry key value rest

section Insert

variable [DecidableEq κ] [DecidableLT κ]

/-- What is in the entries after an insertion was inserted or was there before. -/
theorem mem_insertEntry {key : κ} {value : α} {entries : List (κ × α)} {e : κ × α}
    (h : e ∈ insertEntry key value entries) : e = (key, value) ∨ e ∈ entries := by
  induction entries with
  | nil => simpa [insertEntry] using h
  | cons entry rest ih =>
    grind [insertEntry]

/-- Entries stay sorted when one is inserted. -/
theorem sorted_insertEntry [KeyOrder κ] {key : κ} {value : α} {entries : List (κ × α)}
    (h : entries.Pairwise fun a b => a.1 < b.1) :
    (insertEntry key value entries).Pairwise fun a b => a.1 < b.1 := by
  induction entries with
  | nil => simp [insertEntry]
  | cons entry rest ih =>
    obtain ⟨other, kept⟩ := entry
    rw [List.pairwise_cons] at h
    simp only [insertEntry]
    split
    · next same => exact List.pairwise_cons.2 ⟨fun e he => same ▸ h.1 e he, h.2⟩
    · split
      · next before =>
        refine List.pairwise_cons.2 ⟨fun e he => ?_, List.pairwise_cons.2 h⟩
        rcases List.mem_cons.1 he with rfl | he
        · exact before
        · exact KeyOrder.trans before (h.1 e he)
      · next different notBefore =>
        refine List.pairwise_cons.2 ⟨fun e he => ?_, ih h.2⟩
        rcases mem_insertEntry he with rfl | he
        · exact Decidable.byContradiction fun notAfter =>
            different (KeyOrder.eq_of_not_lt notBefore notAfter)
        · exact h.1 e he

variable [KeyOrder κ]

/-- The map in which the key has the value. -/
def insert (m : SortedMap κ α) (key : κ) (value : α) : SortedMap κ α :=
  ⟨insertEntry key value m.entries, sorted_insertEntry m.sorted⟩

/-- The map filled from a list; of two entries with one key the later counts. -/
def ofList (entries : List (κ × α)) : SortedMap κ α :=
  entries.foldl (fun m (key, value) => m.insert key value) empty

/-- The first map with all entries of the second, which win over its own. -/
def union (m other : SortedMap κ α) : SortedMap κ α :=
  other.entries.foldl (fun m (key, value) => m.insert key value) m

end Insert

/-! ### What a map holds -/

section Lookup

variable [DecidableEq κ]

/-- The empty map holds nothing. -/
@[simp] theorem get?_empty (key : κ) : (∅ : SortedMap κ α).get? key = none := rfl

/-- After an insertion the new value is found under its key, and what was there before elsewhere. -/
theorem lookup_insertEntry [DecidableLT κ] (key other : κ) (value : α) (entries : List (κ × α)) :
    (insertEntry key value entries).lookup other =
      if other = key then some value else entries.lookup other := by
  induction entries with
  | nil => grind [insertEntry]
  | cons entry rest ih => grind [insertEntry]

/-- A map holds what was inserted, and under other keys what it held before. -/
@[simp] theorem get?_insert [DecidableLT κ] [KeyOrder κ] (m : SortedMap κ α) (key other : κ)
    (value : α) :
    (m.insert key value).get? other = if other = key then some value else m.get? other :=
  lookup_insertEntry key other value m.entries

/-- A key has a value exactly if the pair is an entry. -/
theorem get?_eq_some_iff [KeyOrder κ] {m : SortedMap κ α} {key : κ} {value : α} :
    m.get? key = some value ↔ (key, value) ∈ m.entries := by
  obtain ⟨entries, sorted⟩ := m
  simp only [get?]
  induction entries with
  | nil => simp
  | cons entry rest ih =>
    obtain ⟨other, kept⟩ := entry
    rw [List.pairwise_cons] at sorted
    by_cases h : key = other
    · subst h
      have absent : (key, value) ∉ rest := fun mem =>
        KeyOrder.irrefl key (sorted.1 _ mem)
      simp [absent, eq_comm]
    · have : (key == other) = false := by simpa using h
      simp [List.lookup_cons, this, h, ih sorted.2]

end Lookup

end SortedMap

end DeviceBlob
