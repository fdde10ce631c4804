import DeviceBlob.SortedMap
import Mathlib.Data.List.Nodup

/-!
# What sorted maps hold

A map is determined by its values (`ext_get?`).  A map filled from a list holds for each key the
value that comes last in the list; where no key comes with two values it holds exactly the entries
of the list (`get?_ofList_eq_some_iff`, `mem_ofList_iff`), and filling a map from the entries of
another one copies it.
-/

namespace DeviceBlob.SortedMap

/-- Entries with one key are the same. -/
def Functional {κ α : Type} (entries : List (κ × α)) : Prop :=
  ∀ a ∈ entries, ∀ b ∈ entries, a.1 = b.1 → a = b

/-- Where no key comes twice, entries with one key are the same. -/
theorem functional_of_nodup {κ α : Type} {entries : List (κ × α)}
    (nodup : (entries.map (·.1)).Nodup) : Functional entries :=
  fun _ here _ there same => List.inj_on_of_nodup_map nodup here there same

/-- Where no key comes twice, a lookup finds each entry. -/
theorem lookup_eq_some_iff_of_nodup {κ α : Type} [DecidableEq κ] {key : κ} {value : α} :
    ∀ {entries : List (κ × α)}, (entries.map (·.1)).Nodup →
      (entries.lookup key = some value ↔ (key, value) ∈ entries)
  | [], _ => by simp
  | (other, kept) :: rest, nodup => by
    rw [List.map_cons, List.nodup_cons] at nodup
    by_cases h : key = other
    · subst h
      have absent : (key, value) ∉ rest := fun mem => nodup.1 (List.mem_map.2 ⟨_, mem, rfl⟩)
      simp [absent, eq_comm]
    · have : (key == other) = false := by simpa using h
      simp [List.lookup_cons, this, h, lookup_eq_some_iff_of_nodup nodup.2]

variable {κ α : Type} [LT κ]

/-! ### Keys -/

/-- The keys ascend. -/
theorem sorted_keys (m : SortedMap κ α) : m.keys.Pairwise (· < ·) := by
  rw [keys, List.pairwise_map]
  exact m.sorted

/-- No key of a map stands twice. -/
theorem nodup_keys [KeyOrder κ] (m : SortedMap κ α) : (m.entries.map (·.1)).Nodup := by
  rw [List.Nodup, List.pairwise_map]
  refine m.sorted.imp ?_
  intro a b before same
  rw [same] at before
  exact KeyOrder.irrefl _ before

section Lookup

variable [DecidableEq κ]

/-- A key without a value is the key of no entry. -/
theorem get?_eq_none_iff [KeyOrder κ] {m : SortedMap κ α} {key : κ} :
    m.get? key = none ↔ ∀ value, (key, value) ∉ m.entries := by
  simp only [← get?_eq_some_iff]
  cases m.get? key <;> simp

/-- A key is contained when it is found. -/
theorem contains_iff [KeyOrder κ] {m : SortedMap κ α} {key : κ} :
    m.contains key = true ↔ ∃ value, m.get? key = some value := by
  simp [contains, Option.isSome_iff_exists]

end Lookup

/-- Entries in the order of their keys are determined by what they hold. -/
theorem eq_of_mem_iff [KeyOrder κ] : ∀ {a b : List (κ × α)},
    a.Pairwise (fun x y => x.1 < y.1) → b.Pairwise (fun x y => x.1 < y.1) →
      (∀ e, e ∈ a ↔ e ∈ b) → a = b
  | [], [], _, _, _ => rfl
  | [], y :: _, _, _, same => absurd ((same y).2 List.mem_cons_self) List.not_mem_nil
  | x :: _, [], _, _, same => absurd ((same x).1 List.mem_cons_self) List.not_mem_nil
  | x :: a, y :: b, ha, hb, same => by
    rw [List.pairwise_cons] at ha hb
    have head : x = y := by
      rcases List.mem_cons.1 ((same x).1 List.mem_cons_self) with h | hx
      · exact h
      · rcases List.mem_cons.1 ((same y).2 List.mem_cons_self) with h | hy
        · exact h.symm
        · exact absurd (KeyOrder.trans (ha.1 y hy) (hb.1 x hx)) (KeyOrder.irrefl _)
    subst head
    have tail : ∀ e, e ∈ a ↔ e ∈ b := by
      intro e
      have here := same e
      simp only [List.mem_cons] at here
      constructor
      · intro he
        rcases here.1 (Or.inr he) with rfl | h
        · exact absurd (ha.1 e he) (KeyOrder.irrefl _)
        · exact h
      · intro he
        rcases here.2 (Or.inr he) with rfl | h
        · exact absurd (hb.1 e he) (KeyOrder.irrefl _)
        · exact h
    rw [eq_of_mem_iff ha.2 hb.2 tail]

variable [DecidableEq κ]

/-- A map is determined by the values of its keys. -/
theorem ext_get? [KeyOrder κ] {m other : SortedMap κ α}
    (same : ∀ key, m.get? key = other.get? key) : m = other := by
  apply SortedMap.ext
  apply eq_of_mem_iff m.sorted other.sorted
  rintro ⟨key, value⟩
  rw [← get?_eq_some_iff, ← get?_eq_some_iff, same]

/-! ### Filling a map from a list -/

variable [DecidableLT κ] [KeyOrder κ]

/-- The value of a key after a list of entries was put into a map. -/
theorem get?_foldl_insert (key : κ) : ∀ (entries : List (κ × α)) (m : SortedMap κ α),
    (entries.foldl (fun m (key, value) => m.insert key value) m).get? key =
      (entries.reverse.lookup key).or (m.get? key)
  | [], m => by simp
  | (other, value) :: rest, m => by
    rw [List.foldl_cons, get?_foldl_insert key rest, get?_insert, List.reverse_cons,
      List.lookup_append]
    by_cases h : key = other
    · subst h
      cases rest.reverse.lookup key <;> simp
    · have : (key == other) = false := by simpa using h
      simp [List.lookup_cons, this, h]

/-- Of two entries with one key the later counts. -/
theorem get?_ofList (key : κ) (entries : List (κ × α)) :
    (ofList entries).get? key = entries.reverse.lookup key := by
  rw [ofList, get?_foldl_insert]
  simp [get?, empty]

/-- A map filled from a list in which no key comes twice holds the entries of the list. -/
theorem get?_ofList_eq_some_iff {entries : List (κ × α)} (nodup : (entries.map (·.1)).Nodup)
    {key : κ} {value : α} :
    (ofList entries).get? key = some value ↔ (key, value) ∈ entries := by
  rw [get?_ofList, lookup_eq_some_iff_of_nodup, List.mem_reverse]
  rwa [List.map_reverse, List.nodup_reverse]

/-- A map filled from a list holds nothing else. -/
theorem mem_of_get?_ofList {entries : List (κ × α)} {key : κ} {value : α}
    (h : (ofList entries).get? key = some value) : (key, value) ∈ entries := by
  rw [get?_ofList, List.lookup_eq_some_iff] at h
  obtain ⟨front, back, split, -⟩ := h
  rw [← List.mem_reverse, split]
  simp

/-- A map filled from a list has a value for each key in the list. -/
theorem exists_get?_ofList {entries : List (κ × α)} {key : κ} {value : α}
    (mem : (key, value) ∈ entries) : ∃ held, (ofList entries).get? key = some held := by
  rw [← Option.isSome_iff_exists, get?_ofList, List.lookup_isSome_iff]
  exact ⟨(key, value), List.mem_reverse.2 mem, beq_self_eq_true _⟩

/-- A map filled from a list has the keys of the list. -/
theorem mem_keys_ofList {entries : List (κ × α)} {key : κ} :
    key ∈ (ofList entries).keys ↔ key ∈ entries.map (·.1) := by
  constructor
  · intro mem
    obtain ⟨⟨key, value⟩, held, rfl⟩ := List.mem_map.1 mem
    exact List.mem_map_of_mem (mem_of_get?_ofList (get?_eq_some_iff.2 held))
  · intro mem
    obtain ⟨⟨key, value⟩, listed, rfl⟩ := List.mem_map.1 mem
    obtain ⟨other, held⟩ := exists_get?_ofList listed
    exact List.mem_map.2 ⟨(key, other), get?_eq_some_iff.1 held, rfl⟩

/-- An entry that all entries with its key agree with is held. -/
theorem get?_ofList_of_agree {entries : List (κ × α)} {key : κ} {value : α}
    (mem : (key, value) ∈ entries) (agree : ∀ other, (key, other) ∈ entries → other = value) :
    (ofList entries).get? key = some value := by
  obtain ⟨held, found⟩ := exists_get?_ofList mem
  rw [found, agree held (mem_of_get?_ofList found)]

/-- A map filled from entries with different keys holds all of them. -/
theorem mem_ofList_iff {entries : List (κ × α)} (functional : Functional entries) {entry : κ × α} :
    entry ∈ (ofList entries).entries ↔ entry ∈ entries := by
  obtain ⟨key, value⟩ := entry
  rw [← get?_eq_some_iff]
  constructor
  · exact mem_of_get?_ofList
  · intro mem
    apply get?_ofList_of_agree mem
    intro other again
    exact (Prod.mk.inj (functional _ again _ mem rfl)).2

/-- A map filled from entries in which no key comes twice lists them in another order. -/
theorem perm_ofList {entries : List (κ × α)} (nodup : (entries.map (·.1)).Nodup) :
    (ofList entries).entries.Perm entries :=
  (List.perm_ext_iff_of_nodup (ofList entries).nodup_keys.of_map nodup.of_map).2 fun _ =>
    mem_ofList_iff (functional_of_nodup nodup)

/-- Entries with the same members fill the same map. -/
theorem ofList_congr {a b : List (κ × α)} (functional : Functional b)
    (same : ∀ entry, entry ∈ a ↔ entry ∈ b) : ofList a = ofList b := by
  have functional' : Functional a := by
    intro x hx y hy
    exact functional x ((same x).1 hx) y ((same y).1 hy)
  apply SortedMap.ext
  apply eq_of_mem_iff (sorted _) (sorted _)
  intro entry
  rw [mem_ofList_iff functional, mem_ofList_iff functional', same]

/-- Filling a map from the entries of a map copies it. -/
@[simp] theorem ofList_entries (m : SortedMap κ α) : ofList m.entries = m := by
  apply ext_get?
  intro key
  apply Option.ext
  intro value
  rw [get?_ofList_eq_some_iff m.nodup_keys, get?_eq_some_iff]

/-- Of two maps the second wins. -/
theorem get?_union (m other : SortedMap κ α) (key : κ) :
    (m.union other).get? key = (other.get? key).or (m.get? key) := by
  have copied := get?_ofList key other.entries
  have put := get?_foldl_insert key other.entries m
  rw [ofList_entries] at copied
  rw [← copied] at put
  exact put

/-- Behind the last entry of a key no other value is put in its place. -/
theorem get?_ofList_append_cons {front back : List (κ × α)} {key : κ} {value : α}
    (last : key ∉ back.map (·.1)) :
    (ofList (front ++ (key, value) :: back)).get? key = some value := by
  have none : back.reverse.lookup key = none := by
    rw [List.lookup_eq_none_iff]
    intro entry mem
    rw [bne_iff_ne]
    rintro rfl
    exact last (List.mem_map_of_mem (List.mem_reverse.1 mem))
  rw [get?_ofList, List.reverse_append, List.reverse_cons, List.append_assoc,
    List.lookup_append, none, Option.none_or]
  simp

/-- Before another entry of its key the value of an entry makes no difference. -/
theorem ofList_append_cons_congr {front back : List (κ × α)} {key : κ} (value other : α)
    (again : key ∈ back.map (·.1)) :
    ofList (front ++ (key, value) :: back) = ofList (front ++ (key, other) :: back) := by
  apply ext_get?
  intro wanted
  simp only [get?_ofList, List.reverse_append, List.reverse_cons, List.append_assoc,
    List.lookup_append]
  by_cases same : wanted = key
  · subst same
    obtain ⟨entry, mem, rfl⟩ := List.mem_map.1 again
    have some : (back.reverse.lookup entry.1).isSome = true := by
      rw [List.lookup_isSome_iff]
      exact ⟨entry, List.mem_reverse.2 mem, beq_self_eq_true _⟩
    obtain ⟨found, held⟩ := Option.isSome_iff_exists.1 some
    rw [held, Option.some_or, Option.some_or]
  · have skipped : (wanted == key) = false := by simpa using same
    simp [List.lookup_cons, skipped]

end DeviceBlob.SortedMap
