import DeviceBlob.Code.Unit
import Mathlib.Data.List.Induction

/-!
# Texts that are kept once

A unit keeps the first entry of each text (`distinct`).  So its texts are those of all entries that
were added (`mem_texts_distinct`), each once (`nodup_texts_distinct`) and in the order in which they
came (`distinct_split`), and entries that bring no new text change nothing
(`distinct_append_of_known`).
-/

namespace DeviceBlob.Code.CodeUnit

section Distinct

variable {α : Type} {text : α → String} {entries front back : List α} {entry : α}

/-- The entries with different texts, the first one of each text. -/
def distinct (text : α → String) (entries : List α) : List α :=
  entries.foldl (addText text) []

/-- A list with one entry more has its own entries in front, and the new one if its text is new. -/
theorem addText_eq (text : α → String) (list : List α) (entry : α) :
    addText text list entry =
      list ++ if text entry ∈ list.map text then [] else [entry] := by
  have known : (list.any fun other => text other == text entry) = true ↔
      text entry ∈ list.map text := by
    rw [List.any_eq_true, List.mem_map]
    simp only [beq_iff_eq]
  unfold addText
  by_cases mem : text entry ∈ list.map text
  · rw [if_pos (known.2 mem), if_pos mem, List.append_nil]
  · rw [if_neg (fun found => mem (known.1 found)), if_neg mem]

/-- Two lists keep what the first keeps, and then what is new in the second. -/
theorem distinct_append (text : α → String) (front back : List α) :
    distinct text (front ++ back) = back.foldl (addText text) (distinct text front) :=
  List.foldl_append

/-- One entry more is kept if its text is new. -/
theorem distinct_concat (text : α → String) (entries : List α) (entry : α) :
    distinct text (entries ++ [entry]) = addText text (distinct text entries) entry := by
  rw [distinct_append, List.foldl_cons, List.foldl_nil]

/-- Later entries come behind earlier ones. -/
theorem exists_distinct_append (text : α → String) (entries : List α) : ∀ more : List α,
    ∃ rest, distinct text (entries ++ more) = distinct text entries ++ rest := by
  intro more
  induction more using List.reverseRecOn with
  | nil => exact ⟨[], by rw [List.append_nil, List.append_nil]⟩
  | append_singleton more entry ih =>
    obtain ⟨rest, same⟩ := ih
    rw [← List.append_assoc, distinct_concat, addText_eq, same, List.append_assoc]
    exact ⟨_, rfl⟩

/-- An entry is kept only if it was added. -/
theorem mem_of_mem_distinct (mem : entry ∈ distinct text entries) : entry ∈ entries := by
  induction entries using List.reverseRecOn with
  | nil => exact mem
  | append_singleton entries last ih =>
    rw [distinct_concat, addText_eq, List.mem_append] at mem
    rcases mem with before | here
    · exact List.mem_append_left _ (ih before)
    · split at here
      · exact absurd here List.not_mem_nil
      · exact List.mem_append_right _ here

/-- The texts are those of all entries. -/
theorem mem_texts_distinct {wanted : String} :
    wanted ∈ (distinct text entries).map text ↔ wanted ∈ entries.map text := by
  induction entries using List.reverseRecOn generalizing wanted with
  | nil => exact Iff.rfl
  | append_singleton entries last ih =>
    rw [distinct_concat, addText_eq, List.map_append, List.mem_append, ih, List.map_append,
      List.mem_append]
    split
    · next known =>
      rw [ih] at known
      refine or_congr_right' fun unknown => ⟨fun mem => absurd mem List.not_mem_nil, fun mem => ?_⟩
      rw [List.map_singleton, List.mem_singleton] at mem
      exact absurd (mem ▸ known) unknown
    · exact Iff.rfl

/-- No text is kept twice. -/
theorem nodup_texts_distinct (text : α → String) (entries : List α) :
    ((distinct text entries).map text).Nodup := by
  induction entries using List.reverseRecOn with
  | nil => exact List.nodup_nil
  | append_singleton entries last ih =>
    rw [distinct_concat]
    exact nodup_addText ih

/-- The first entry of a text stands behind those that were added before it. -/
theorem distinct_split (back : List α) (new : text entry ∉ front.map text) :
    ∃ rest, distinct text (front ++ entry :: back) = distinct text front ++ entry :: rest := by
  obtain ⟨rest, same⟩ := exists_distinct_append text (front ++ [entry]) back
  rw [List.append_assoc, List.singleton_append, distinct_concat, addText_eq,
    if_neg (fun mem => new (mem_texts_distinct.1 mem)), List.append_assoc] at same
  exact ⟨rest, same⟩

/-- Entries whose texts are known already change nothing. -/
theorem distinct_append_of_known (known : ∀ entry ∈ back, text entry ∈ front.map text) :
    distinct text (front ++ back) = distinct text front := by
  induction back using List.reverseRecOn with
  | nil => rw [List.append_nil]
  | append_singleton back last ih =>
    have before := ih fun entry mem => known entry (List.mem_append_left _ mem)
    have here := known last (List.mem_append_right _ List.mem_cons_self)
    rw [← List.append_assoc, distinct_concat, addText_eq, before,
      if_pos (mem_texts_distinct.2 here), List.append_nil]

/-- Each text among the entries has a first entry. -/
theorem exists_first (text : α → String) (mem : entry ∈ entries) :
    ∃ front first back, entries = front ++ first :: back ∧ text first = text entry ∧
      text first ∉ front.map text := by
  induction entries with
  | nil => exact absurd mem List.not_mem_nil
  | cons head rest ih =>
    by_cases same : text head = text entry
    · exact ⟨[], head, rest, rfl, same, List.not_mem_nil⟩
    · rcases List.mem_cons.1 mem with rfl | later
      · exact absurd rfl same
      · obtain ⟨front, first, back, rfl, alike, new⟩ := ih later
        refine ⟨head :: front, first, back, rfl, alike, ?_⟩
        rw [List.map_cons, List.mem_cons, not_or]
        exact ⟨fun again => same (again.symm.trans alike), new⟩

end Distinct

/-! ### Adding the code of a type -/

/-- Functions are added one by one to both lists. -/
theorem foldl_addFunction (functions : List Function) : ∀ unit : CodeUnit,
    functions.foldl addFunction unit =
      { unit with
        prototypes := functions.foldl (addText Function.prototype) unit.prototypes
        bodies := functions.foldl (addText Function.definition) unit.bodies } := by
  induction functions with
  | nil => exact fun _ => rfl
  | cons f rest ih => exact fun unit => ih (addFunction unit f)

/-- What the code of a type adds to each list of a unit. -/
theorem add_eq (unit : CodeUnit) (code : TypeCode) :
    unit.add code =
      { unit with
        declarations := addText Declaration.text unit.declarations code.declaration
        prototypes := code.functions.foldl (addText Function.prototype) unit.prototypes
        bodies := code.functions.foldl (addText Function.definition) unit.bodies } :=
  foldl_addFunction code.functions _

end DeviceBlob.Code.CodeUnit
