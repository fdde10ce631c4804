import Mathlib.Logic.Basic
import Mathlib.Logic.Relation

/-!
# Lists that have the same text

A list is spelled by the texts of its entries, one behind the other.  Where an entry may contain
what looks like the end of one entry and the front of the next, different lists are spelled alike:
what is one entry of the one list is two `halves` of it in the other.  `Split` takes an entry apart.

This is the only way to the same text.  If, of two entries in front of the same text, the shorter
one is always a half of the longer one (`Spelling`), lists have the same text exactly if they can be
split until they are the same (`flatMap_eq_iff_alike`), and those without an entry to take apart
have the same text only if they are equal (`eq_of_flatMap_eq`).
-/

namespace DeviceBlob.Text

variable {Entry : Type} {text : Entry → List Char} {halves : Entry → Entry → Entry → Prop}
  {entries others : List Entry}

/-- Where every entry has a text there are no more entries than letters. -/
theorem length_le_length_flatMap (written : ∀ entry, text entry ≠ []) (entries : List Entry) :
    entries.length ≤ (entries.flatMap text).length := by
  induction entries with
  | nil => exact Nat.le_refl _
  | cons entry rest ih =>
    have positive := List.length_pos_iff.2 (written entry)
    simp only [List.length_cons, List.flatMap_cons, List.length_append]
    omega

/-- An entry of a list is taken apart into two halves. -/
inductive Split (halves : Entry → Entry → Entry → Prop) : List Entry → List Entry → Prop
  | here {whole first second : Entry} (apart : halves whole first second) (rest : List Entry) :
    Split halves (whole :: rest) (first :: second :: rest)
  | behind (entry : Entry) {entries others : List Entry} (split : Split halves entries others) :
    Split halves (entry :: entries) (entry :: others)

/-- The entry cannot be taken apart. -/
def Unsplit (halves : Entry → Entry → Entry → Prop) (entry : Entry) : Prop :=
  ∀ first second, ¬halves entry first second

/-- The lists can be split until they are the same. -/
def Alike (halves : Entry → Entry → Entry → Prop) : List Entry → List Entry → Prop :=
  Relation.Join (Relation.ReflTransGen (Split halves))

/-- Every text of entries is like itself. -/
theorem Alike.refl (entries : List Entry) : Alike halves entries entries :=
  ⟨entries, .refl, .refl⟩

/-- Taking entries apart into halves accounts for all ambiguity of their texts. -/
structure Spelling (text : Entry → List Char) (halves : Entry → Entry → Entry → Prop) : Prop where
  /-- Every entry has a text. -/
  ne_nil : ∀ entry, text entry ≠ []
  /-- Two halves have the text of the whole. -/
  text_eq : ∀ {whole first second}, halves whole first second →
    text whole = text first ++ text second
  /-- Of two entries at the front of the same text, one is the other or a half of it. -/
  compare : ∀ {entry other : Entry} {entries others : List Entry},
    text entry ++ entries.flatMap text = text other ++ others.flatMap text →
      entry = other ∨ (∃ second, halves entry other second) ∨ ∃ second, halves other entry second

/-- A split makes one entry more. -/
theorem Split.length_eq (split : Split halves entries others) :
    others.length = entries.length + 1 := by
  induction split with
  | here apart rest => simp
  | behind entry split ih => simp [ih]

/-- A list with an entry to take apart can be split. -/
theorem exists_split (entry : ¬∀ entry ∈ entries, Unsplit halves entry) :
    ∃ others, Split halves entries others := by
  induction entries with
  | nil => simp at entry
  | cons first rest ih =>
    by_cases unsplit : Unsplit halves first
    · have among : ¬∀ entry ∈ rest, Unsplit halves entry := by
        intro all
        exact entry (List.forall_mem_cons.2 ⟨unsplit, all⟩)
      obtain ⟨others, split⟩ := ih among
      exact ⟨first :: others, .behind first split⟩
    · simp only [Unsplit, not_forall, not_not] at unsplit
      obtain ⟨front, back, apart⟩ := unsplit
      exact ⟨front :: back :: rest, .here apart rest⟩

namespace Spelling

variable (spelling : Spelling text halves)

include spelling

/-- Splitting leaves the text as it is. -/
theorem flatMap_eq_of_split (split : Split halves entries others) :
    entries.flatMap text = others.flatMap text := by
  induction split with
  | here apart rest => simp [spelling.text_eq apart]
  | behind entry split ih => simp [ih]

/-- Splits leave the text as it is. -/
theorem flatMap_eq_of_splits (splits : Relation.ReflTransGen (Split halves) entries others) :
    entries.flatMap text = others.flatMap text := by
  induction splits with
  | refl => rfl
  | tail before split ih => exact ih.trans (spelling.flatMap_eq_of_split split)

/-- Every list can be split until no entry can be taken apart.  This does not go on for ever, since
there are never more entries than letters. -/
theorem exists_unsplit (entries : List Entry) :
    ∃ others, Relation.ReflTransGen (Split halves) entries others ∧
      ∀ entry ∈ others, Unsplit halves entry := by
  by_cases unsplit : ∀ entry ∈ entries, Unsplit halves entry
  · exact ⟨entries, .refl, unsplit⟩
  · obtain ⟨next, split⟩ := exists_split unsplit
    have same := spelling.flatMap_eq_of_split split
    have longer := split.length_eq
    have room := length_le_length_flatMap spelling.ne_nil next
    obtain ⟨others, splits, done⟩ := exists_unsplit next
    exact ⟨others, .head split splits, done⟩
termination_by (entries.flatMap text).length - entries.length
decreasing_by
  rw [same]
  omega

/-- Lists that cannot be split are told apart by their texts. -/
theorem eq_of_flatMap_eq : ∀ {entries others : List Entry},
    (∀ entry ∈ entries, Unsplit halves entry) → (∀ other ∈ others, Unsplit halves other) →
      entries.flatMap text = others.flatMap text → entries = others
  | [], [], _, _, _ => rfl
  | [], other :: _, _, _, same => by
    rw [List.flatMap_nil, List.flatMap_cons] at same
    exact absurd (List.append_eq_nil_iff.1 same.symm).1 (spelling.ne_nil other)
  | entry :: _, [], _, _, same => by
    rw [List.flatMap_nil, List.flatMap_cons] at same
    exact absurd (List.append_eq_nil_iff.1 same).1 (spelling.ne_nil entry)
  | entry :: rest, other :: more, unsplit, unsplit', same => by
    rw [List.flatMap_cons, List.flatMap_cons] at same
    rcases spelling.compare same with rfl | ⟨second, apart⟩ | ⟨second, apart⟩
    · have behind : rest = more := by
        apply eq_of_flatMap_eq _ _ (List.append_cancel_left same)
        · exact fun entry mem => unsplit entry (List.mem_cons_of_mem _ mem)
        · exact fun other mem => unsplit' other (List.mem_cons_of_mem _ mem)
      rw [behind]
    · exact absurd apart (unsplit entry List.mem_cons_self other second)
    · exact absurd apart (unsplit' other List.mem_cons_self entry second)

/-- Lists have the same text exactly if they can be split until they are the same. -/
theorem flatMap_eq_iff_alike :
    entries.flatMap text = others.flatMap text ↔ Alike halves entries others := by
  constructor
  · intro same
    obtain ⟨front, splits, done⟩ := spelling.exists_unsplit entries
    obtain ⟨back, splits', done'⟩ := spelling.exists_unsplit others
    have joined : front = back := by
      apply spelling.eq_of_flatMap_eq done done'
      rw [← spelling.flatMap_eq_of_splits splits, same, spelling.flatMap_eq_of_splits splits']
    exact ⟨back, joined ▸ splits, splits'⟩
  · rintro ⟨common, splits, splits'⟩
    rw [spelling.flatMap_eq_of_splits splits, spelling.flatMap_eq_of_splits splits']

/-- Lists that cannot be split are alike only if they are equal. -/
theorem eq_of_alike (unsplit : ∀ entry ∈ entries, Unsplit halves entry)
    (unsplit' : ∀ other ∈ others, Unsplit halves other) (alike : Alike halves entries others) :
    entries = others :=
  spelling.eq_of_flatMap_eq unsplit unsplit' (spelling.flatMap_eq_iff_alike.2 alike)

end Spelling

end DeviceBlob.Text
