/-!
# Blank characters

The characters with the Unicode property `White_Space`, and the text that is left when they are
cut from both ends.
-/

namespace DeviceBlob.Text

/-- The character has the property `White_Space`. -/
def isBlank (c : Char) : Bool :=
  let code := c.toNat
  (0x09 ≤ code && code ≤ 0x0D) || code == 0x20 || code == 0x85 || code == 0xA0 ||
    code == 0x1680 || (0x2000 ≤ code && code ≤ 0x200A) || code == 0x2028 || code == 0x2029 ||
    code == 0x202F || code == 0x205F || code == 0x3000

/-- The characters between the first and the last that is not blank. -/
def trimChars (cs : List Char) : List Char :=
  ((cs.dropWhile isBlank).reverse.dropWhile isBlank).reverse

/-- The text without the blank characters at its two ends. -/
def trim (s : String) : String :=
  String.ofList (trimChars s.toList)

/-- Nothing stays nothing. -/
@[simp] theorem trimChars_nil : trimChars [] = [] := rfl

/-- A text that begins and ends with characters that are not blank is left as it is. -/
theorem trimChars_eq_self {cs : List Char} (first : ∀ c ∈ cs.head?, isBlank c = false)
    (last : ∀ c ∈ cs.getLast?, isBlank c = false) : trimChars cs = cs := by
  have dropWhile_eq : ∀ {xs : List Char}, (∀ c ∈ xs.head?, isBlank c = false) →
      xs.dropWhile isBlank = xs := by
    intro xs h
    cases xs with
    | nil => rfl
    | cons x rest => simp [h x (by simp)]
  rw [trimChars, dropWhile_eq first, dropWhile_eq (by simpa using last), List.reverse_reverse]

end DeviceBlob.Text
