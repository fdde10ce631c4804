import DeviceBlob.Proofs.Name.Lowering
import DeviceBlob.Proofs.Text.Letter

/-!
# Joined names and snake case

Both parts of a joined name are told by it (`join_left_cancel`, `join_right_cancel`).  The lower
case of the character tables has the properties that names rely on (`isLowering_lower`), so snake
case obeys the laws that it obeys under any lower case: a joined name is brought into snake case part
by part (`snake_join`), and a name that is in snake case already stays as it is (`snake_snake`).
-/

namespace DeviceBlob.Name

open Text

/-! ### Parent and child -/

/-- What is joined to a name is not empty. -/
theorem join_ne_empty {parent child : String} (h : child ≠ "") : join parent child ≠ "" := by
  unfold join
  split
  · exact h
  · simp

/-- A name is within another one when it continues it behind an underscore. -/
theorem within?_eq_some_iff_eq_append {parent name child : String} :
    within? parent name = some child ↔ name = parent ++ "_" ++ child := by
  rw [within?_eq_some_iff, ← String.toList_inj]
  simp [separator]

/-- Within a parent that has a name are the names joined to it. -/
theorem within?_eq_some_iff_eq_join {parent name child : String} (named : parent ≠ "") :
    within? parent name = some child ↔ name = join parent child := by
  rw [within?_eq_some_iff, ← String.toList_inj, toList_join named]

/-- A joined name ends as its last part does. -/
theorem getLast?_toList_join {child : String} (named : child ≠ "") (parent : String) :
    (join parent child).toList.getLast? = child.toList.getLast? := by
  by_cases empty : parent = ""
  · subst empty
    rfl
  · have some : child.toList ≠ [] := by simpa using named
    obtain ⟨c, rest, cons⟩ := List.exists_cons_of_ne_nil some
    rw [toList_join empty, cons, List.getLast?_append_of_ne_nil _ (List.cons_ne_nil _ _),
      List.getLast?_cons_cons]

/-- What was put under a name is told by the joined name. -/
theorem join_left_cancel {parent child other : String}
    (same : join parent child = join parent other) : child = other := by
  by_cases empty : parent = ""
  · rwa [empty, join_empty, join_empty] at same
  · exact Option.some.inj ((within?_join empty child).symm.trans
      ((congrArg _ same).trans (within?_join empty other)))

/-- What a name was put under is told by the joined name. -/
theorem join_right_cancel {parent other child : String}
    (same : join parent child = join other child) : parent = other := by
  have letters := congrArg String.toList same
  by_cases empty : parent = ""
  · by_cases other_empty : other = ""
    · rw [empty, other_empty]
    · rw [empty, join_empty, toList_join other_empty] at letters
      have length := congrArg List.length letters
      simp only [List.length_append, List.length_cons] at length
      omega
  · by_cases other_empty : other = ""
    · rw [other_empty, join_empty, toList_join empty] at letters
      have length := congrArg List.length letters
      simp only [List.length_append, List.length_cons] at length
      omega
    · rw [toList_join empty, toList_join other_empty, List.append_cancel_right_eq] at letters
      exact String.toList_inj.1 letters

/-! ### Snake case -/

/-- Names can rely on the lower case of the character tables. -/
theorem isLowering_lower : IsLowering Letter.lower where
  ne_nil := Letter.lower_ne_nil
  idempotent c := by
    have each : ∀ d ∈ Letter.lower c, Letter.lower d = [d] :=
      fun d mem => (Letter.lower_of_mem_lower mem).1
    rw [List.flatMap_congr each, List.flatMap_singleton']
  unchanged c d mem upper := by
    obtain ⟨fixed, same⟩ := Letter.lower_of_mem_lower mem
    rw [← same upper, fixed]
  separator_kept := rfl

/-- Under the lower case of the tables the general scan is the one that runs. -/
theorem snakeCharsBy_lower : ∀ (cs : List Char) (last : Option Char),
    snakeCharsBy Letter.lower last cs = snakeChars last cs
  | [], _ => rfl
  | c :: rest, last => by
    rw [snakeCharsBy, snakeChars, snakeCharsBy_lower rest]

/-- Snake case is taken under the lower case of the character tables. -/
theorem snakeBy_lower : snakeBy Letter.lower = snake := by
  funext name
  rw [snakeBy, snake, snakeCharsBy_lower]

/-- Snake case obeys the laws of names. -/
theorem isNaming_snake : IsNaming snake := by
  rw [← snakeBy_lower]
  exact isLowering_lower.isNaming_snakeBy

/-- A joined name is brought into snake case part by part. -/
theorem snake_join (parent child : String) :
    snake (join parent child) = join (snake parent) (snake child) := by
  rw [← snakeBy_lower, snakeBy_join isLowering_lower]

/-- A name that is joined from parts in snake case is in snake case. -/
theorem snake_join_of_fixed {parent child : String} (outer : snake parent = parent)
    (inner : snake child = child) : snake (join parent child) = join parent child := by
  rw [snake_join, outer, inner]

/-- A name that was brought into snake case stays as it is. -/
theorem snake_snake (name : String) : snake (snake name) = snake name :=
  isNaming_snake.settled name

/-- No character is lost. -/
theorem snake_eq_empty {name : String} (h : snake name = "") : name = "" := by
  rw [← snakeBy_lower] at h
  exact snakeBy_eq_empty isLowering_lower h

/-- Slot numbers are in snake case. -/
theorem snake_toString (n : Nat) : snake (toString n) = toString n := by
  have digit : ∀ c ∈ Nat.toDigits 10 n, Letter.lower c = [c] ∧ Letter.isUpper c = false := by
    intro c mem
    have small := Nat.isDigit_of_mem_toDigits (by decide) (by decide) mem
    have settled : ∀ code < 0x80, (Char.ofNat code).isDigit = true →
        Letter.lower (Char.ofNat code) = [Char.ofNat code] ∧
          Letter.isUpper (Char.ofNat code) = false := by decide
    have ascii : c.toNat < 0x80 := by
      have bounds := Char.isDigit_iff_toNat.1 small
      have last : '9'.toNat = 57 := rfl
      omega
    have here := settled c.toNat ascii
    rw [Char.ofNat_toNat] at here
    exact here small
  have written := @snakeCharsBy_append_settled _ _ none digit []
  rw [List.append_nil, snakeCharsBy_lower, snakeCharsBy_lower, snakeChars_nil,
    List.append_nil] at written
  rw [← String.toList_inj, toList_snake]
  show snakeChars none (Nat.repr n).toList = (Nat.repr n).toList
  simpa [Nat.repr] using written

end DeviceBlob.Name
