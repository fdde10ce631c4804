import DeviceBlob.Code.Names
import Mathlib.Data.List.Basic

/-!
# Names of types and functions

The part of a name that stands for a type is made of the snake case of the type's name and of the
address space, and both can be read off it (`eq_of_stem`).  More is put behind it only for functions
that look something up: then one name can belong to two types if what stands for one of them
`Continues` what stands for the other (`eq_or_continues`).
-/

namespace DeviceBlob

namespace AddressSpace

variable {space other : AddressSpace}

/-- No two spaces have a letter in common. -/
theorem eq_of_letter (same : space.letter = other.letter) : space = other := by
  cases space <;> cases other <;> first | rfl | cases same

/-- The words for two spaces start differently. -/
theorem eq_of_word {rest rest' : List Char}
    (same : space.word.toList ++ rest = other.word.toList ++ rest') : space = other := by
  have first := congrArg List.head? same
  cases space <;> cases other <;> first | rfl | simp [word] at first

end AddressSpace

/-- A text goes on behind another one and a separator. -/
def Continues (longer shorter : String) : Prop := ∃ rest, longer = shorter ++ "_" ++ rest

/-- A name continues another one behind an underscore. -/
theorem continues_iff {longer shorter : String} :
    Continues longer shorter ↔ ∃ rest, longer.toList = shorter.toList ++ '_' :: rest := by
  constructor
  · rintro ⟨rest, rfl⟩
    exact ⟨rest.toList, by simp⟩
  · rintro ⟨rest, same⟩
    refine ⟨String.ofList rest, ?_⟩
    rw [← String.toList_inj, same]
    simp

/-- A text that is longer than another one is that text itself, or it goes on with a separator, if
separators follow both. -/
theorem eq_or_continues_of_longer {a b gap x y : List Char} (longer : b = a ++ gap)
    (rest : '_' :: x = gap ++ '_' :: y) : (a = b ∧ x = y) ∨ ∃ rest, b = a ++ '_' :: rest := by
  cases gap with
  | nil => exact Or.inl ⟨by rw [longer, List.append_nil], (List.cons.inj rest).2⟩
  | cons c gap =>
    obtain ⟨rfl, -⟩ := List.cons.inj rest
    exact Or.inr ⟨gap, longer⟩

/-- Where two texts with more behind a separator are equal, they are equal themselves, or one of
them goes on behind the other. -/
theorem eq_or_continues {a b x y : String} (same : a ++ "_" ++ x = b ++ "_" ++ y) :
    (a = b ∧ x = y) ∨ Continues a b ∨ Continues b a := by
  have split : a.toList ++ '_' :: x.toList = b.toList ++ '_' :: y.toList := by
    simpa using congrArg String.toList same
  rw [continues_iff, continues_iff, ← String.toList_inj, ← String.toList_inj]
  rcases List.append_eq_append_iff.1 split with ⟨gap, longer, rest⟩ | ⟨gap, longer, rest⟩
  · rcases eq_or_continues_of_longer longer rest with equal | on
    · exact Or.inl equal
    · exact Or.inr (Or.inr on)
  · rcases eq_or_continues_of_longer longer rest with ⟨left, right⟩ | on
    · exact Or.inl ⟨left.symm, right.symm⟩
    · exact Or.inr (Or.inl on)

/-- Two texts behind one and the same text are equal where the whole is. -/
theorem eq_of_append {a x y : String} (same : a ++ x = a ++ y) : x = y := by
  rw [← String.toList_inj, String.toList_append, String.toList_append] at same
  exact String.toList_inj.1 (List.append_cancel_left same)

namespace Names

variable {space other : AddressSpace} {naming : NamingMode} {type another : DataType}

/-- A short stem ends with the letter of its address space. -/
theorem toList_stem_short (space : AddressSpace) (type : DataType) :
    (stem ⟨space, .short⟩ type).toList = (snake type).toList ++ ['_', space.letter, 't'] := by
  simp [stem, toString]

/-- A full stem starts with the word of its address space. -/
theorem toList_stem_full (space : AddressSpace) (type : DataType) :
    (stem ⟨space, .full⟩ type).toList =
      space.word.toList ++ '_' :: (snake type).toList ++ ['_', 't'] := by
  simp [stem, toString]

/-- What stands for a type shows the space and the snake case of the type's name. -/
theorem eq_of_stem (same : stem ⟨space, naming⟩ type = stem ⟨other, naming⟩ another) :
    space = other ∧ snake type = snake another := by
  rw [← String.toList_inj] at same
  cases naming with
  | short =>
    rw [toList_stem_short, toList_stem_short] at same
    obtain ⟨named, placed⟩ := List.append_inj' same rfl
    obtain ⟨-, placed⟩ := List.cons.inj placed
    exact ⟨AddressSpace.eq_of_letter (List.cons.inj placed).1, String.toList_inj.1 named⟩
  | full =>
    rw [toList_stem_full, toList_stem_full, List.append_assoc, List.append_assoc] at same
    obtain rfl := AddressSpace.eq_of_word same
    have behind := (List.cons.inj (List.append_cancel_left same)).2
    exact ⟨rfl, String.toList_inj.1 (List.append_inj' behind rfl).1⟩

/-- What stands for one type in two spaces differs, whatever comes behind it. -/
theorem space_of_stem {rest rest' : List Char}
    (same : (stem ⟨space, naming⟩ type).toList ++ rest =
      (stem ⟨other, naming⟩ type).toList ++ rest') : space = other := by
  cases naming with
  | short =>
    rw [toList_stem_short, toList_stem_short, List.append_assoc, List.append_assoc] at same
    have placed := (List.cons.inj (List.append_cancel_left same)).2
    exact AddressSpace.eq_of_letter (List.cons.inj placed).1
  | full =>
    rw [toList_stem_full, toList_stem_full, List.append_assoc, List.append_assoc,
      List.append_assoc, List.append_assoc] at same
    exact AddressSpace.eq_of_word same

end Names

end DeviceBlob
