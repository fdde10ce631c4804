/-!
# Prefixes and suffixes

What is left of a text when a given beginning or a given end is taken off it.
-/

namespace DeviceBlob.Text

/-- What follows `front` in a text that starts with it. -/
def afterFront? : List Char → List Char → Option (List Char)
  | [], cs => some cs
  | _ :: _, [] => none
  | f :: front, c :: cs => if f = c then afterFront? front cs else none

/-- What precedes `back` in a text that ends with it. -/
def beforeBack? (back cs : List Char) : Option (List Char) :=
  (afterFront? back.reverse cs.reverse).map List.reverse

/-- What is behind a front is found exactly if the front is there. -/
theorem afterFront?_eq_some_iff {front cs rest : List Char} :
    afterFront? front cs = some rest ↔ cs = front ++ rest := by
  induction front generalizing cs with
  | nil => simp [afterFront?, eq_comm]
  | cons f front ih =>
    cases cs with
    | nil => simp [afterFront?]
    | cons c cs =>
      by_cases h : f = c
      · simp [afterFront?, h, ih]
      · simp [afterFront?, h, Ne.symm h]

/-- What is in front of a back is found exactly if the back is there. -/
theorem beforeBack?_eq_some_iff {back cs rest : List Char} :
    beforeBack? back cs = some rest ↔ cs = rest ++ back := by
  simp only [beforeBack?, Option.map_eq_some_iff, afterFront?_eq_some_iff]
  constructor
  · rintro ⟨front, h, rfl⟩
    rw [← List.reverse_reverse cs, h]
    simp
  · intro h
    exact ⟨rest.reverse, by simp [h], by simp⟩

end DeviceBlob.Text
