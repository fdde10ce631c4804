import DeviceBlob.Text.Blank
import DeviceBlob.Text.Pieces

/-!
# Pieces of a text are what was put together

Cutting at a separator undoes joining with it, as long as no part contains the separator
(`pieces_intercalate`), and no piece does (`not_mem_of_mem_pieces`).  The first cut is the one in
front of which no separator stands (`cutFirst_eq_some_iff`, `append_cons_inj`).  What is left after
trimming is `IsTrimmed`, and what is trimmed already is left as it is.
-/

namespace DeviceBlob.Text

variable {separator : Char}

/-! ### Cutting -/

/-- Parts without the separator are found again between the separators. -/
theorem pieces_intercalate : ∀ {parts : List (List Char)}, parts ≠ [] →
    (∀ part ∈ parts, separator ∉ part) → pieces separator ([separator].intercalate parts) = parts
  | [], nonempty, _ => absurd rfl nonempty
  | [part], _, free => by
    rw [List.intercalate_singleton]
    exact pieces_of_not_mem (free part List.mem_cons_self)
  | part :: next :: rest, _, free => by
    have behind := pieces_intercalate (List.cons_ne_nil next rest)
      fun other mem => free other (List.mem_cons_of_mem part mem)
    rw [List.intercalate_cons_cons, List.append_assoc, List.singleton_append,
      pieces_append_cons (free part List.mem_cons_self), behind]

/-- No piece contains the separator. -/
theorem not_mem_of_mem_pieces {cs piece : List Char} (mem : piece ∈ pieces separator cs) :
    separator ∉ piece := by
  induction cs generalizing piece with
  | nil => simp_all
  | cons c rest ih =>
    obtain ⟨first, others, cut⟩ := List.exists_cons_of_ne_nil (pieces_ne_nil separator rest)
    rw [cut] at ih
    by_cases here : c = separator
    · simp only [pieces, here, if_true, cut, List.mem_cons] at mem
      rcases mem with rfl | mem
      · simp
      · exact ih (List.mem_cons.2 mem)
    · simp only [pieces, here, if_false, cut, List.mem_cons] at mem
      rcases mem with rfl | mem
      · simpa [Ne.symm here] using ih List.mem_cons_self
      · exact ih (List.mem_cons_of_mem first mem)

/-- What is cut off in front stood before the first separator. -/
theorem cutFirst_eq_some_iff {cs before after : List Char} :
    cutFirst separator cs = some (before, after) ↔
      cs = before ++ separator :: after ∧ separator ∉ before := by
  constructor
  · intro cut
    induction cs generalizing before with
    | nil => simp [cutFirst] at cut
    | cons c rest ih =>
      by_cases here : c = separator
      · simp only [cutFirst, here, if_true, Option.some.injEq, Prod.mk.injEq] at cut
        obtain ⟨rfl, rfl⟩ := cut
        simp [here]
      · simp only [cutFirst, here, if_false, Option.map_eq_some_iff, Prod.exists,
          Prod.mk.injEq] at cut
        obtain ⟨front, back, cut, rfl, rfl⟩ := cut
        obtain ⟨rfl, free⟩ := ih cut
        simp [Ne.symm here, free]
  · rintro ⟨rfl, free⟩
    exact cutFirst_append_cons free after

/-- What stands before the first separator, and what behind it, is known from the text. -/
theorem append_cons_inj {front back before after : List Char} (free : separator ∉ front)
    (free' : separator ∉ before)
    (same : front ++ separator :: back = before ++ separator :: after) :
    front = before ∧ back = after := by
  have cut := cutFirst_append_cons free back
  rw [same, cutFirst_append_cons free' after, Option.some.injEq, Prod.mk.injEq] at cut
  exact ⟨cut.1.symm, cut.2.symm⟩

/-- The front of a text, if it is without separators, is part of what stands before one. -/
theorem exists_append_of_not_mem {front back before after : List Char} (free : separator ∉ front)
    (same : front ++ back = before ++ separator :: after) : ∃ middle, before = front ++ middle := by
  rcases List.append_eq_append_iff.1 same with ⟨middle, split, -⟩ | ⟨middle, split, rest⟩
  · exact ⟨middle, split⟩
  · cases middle with
    | nil => exact ⟨[], by simpa using split.symm⟩
    | cons first others =>
      rw [List.cons_append, List.cons.injEq] at rest
      rw [split, rest.1] at free
      exact absurd (List.mem_append_right before List.mem_cons_self) free

/-! ### Trimming -/

/-- The text neither begins nor ends with a blank. -/
def IsTrimmed (cs : List Char) : Prop :=
  (∀ c ∈ cs.head?, isBlank c = false) ∧ ∀ c ∈ cs.getLast?, isBlank c = false

/-- Trimmed text stays as it is. -/
theorem IsTrimmed.trimChars_eq {cs : List Char} (h : IsTrimmed cs) : trimChars cs = cs :=
  trimChars_eq_self h.1 h.2

/-- What is left when blanks are dropped in front does not begin with a blank. -/
theorem isBlank_head?_dropWhile {cs : List Char} :
    ∀ c ∈ (cs.dropWhile isBlank).head?, isBlank c = false := by
  intro c first
  have stops := List.head?_dropWhile_not isBlank cs
  rw [Option.mem_def.1 first] at stops
  exact stops

/-- Trimming leaves no blank at either end. -/
theorem isTrimmed_trimChars (cs : List Char) : IsTrimmed (trimChars cs) := by
  -- The second of the two drops may only take from the end, so the front stays without blanks.
  have front : trimChars cs <+: cs.dropWhile isBlank := by
    have back := List.dropWhile_suffix (l := (cs.dropWhile isBlank).reverse) isBlank
    rw [← List.reverse_prefix, List.reverse_reverse] at back
    exact back
  refine ⟨?_, ?_⟩
  · intro c first
    apply isBlank_head?_dropWhile c
    obtain ⟨rest, split⟩ := front
    rw [← split, List.head?_append, Option.mem_def.1 first]
    rfl
  · intro c last
    rw [trimChars, List.getLast?_reverse] at last
    exact isBlank_head?_dropWhile c last

/-- Trimming only takes letters away. -/
theorem mem_of_mem_trimChars {cs : List Char} {c : Char} (mem : c ∈ trimChars cs) : c ∈ cs := by
  rw [trimChars, List.mem_reverse] at mem
  have inner := (List.dropWhile_suffix isBlank).subset mem
  exact (List.dropWhile_suffix isBlank).subset (List.mem_reverse.1 inner)

end DeviceBlob.Text
