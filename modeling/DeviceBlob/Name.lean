import DeviceBlob.Text.Affix
import DeviceBlob.Text.Letter

/-!
# Names

Fields, labels and parameters are addressed by names whose parts are joined with `_`.  `snake`
brings a name in camel case into that form: it writes every letter in lower case and puts `_` in
front of each upper-case letter, except at the start of the name and after another `_`.  `join`
puts a name under a parent and `within?` takes it out again; an empty parent stands for no parent.
-/

namespace DeviceBlob.Name

open Text

/-- The character between the parts of a name. -/
def separator : Char := '_'

/-! ### Snake case -/

/-- The snake case of the rest of a name, given the last character written so far. -/
def snakeChars (last : Option Char) : List Char → List Char
  | [] => []
  | c :: rest =>
    let gap := if Letter.isUpper c && last.any (· != separator) then [separator] else []
    gap ++ Letter.lower c ++ snakeChars ((Letter.lower c).getLast?.or last) rest

/-- The name in snake case. -/
def snake (name : String) : String :=
  String.ofList (snakeChars none name.toList)

/-- Nothing has nothing as its snake case. -/
@[simp] theorem snakeChars_nil (last : Option Char) : snakeChars last [] = [] := rfl

/-- The snake case of a name letter by letter. -/
@[simp] theorem toList_snake (name : String) :
    (snake name).toList = snakeChars none name.toList := by
  simp [snake]

/-! ### Parent and child -/

/-- The name of `child` under `parent`. -/
def join (parent child : String) : String :=
  if parent.isEmpty then child else parent ++ "_" ++ child

/-- The name that `name` has under `parent`, if `name` starts with `parent` and a separator. -/
def within? (parent name : String) : Option String :=
  (afterFront? (parent.toList ++ [separator]) name.toList).map String.ofList

/-- Without a parent a name stays as it is. -/
@[simp] theorem join_empty (child : String) : join "" child = child := rfl

/-- A name is put behind its parent with a separator between them. -/
theorem join_of_ne_empty {parent : String} (h : parent ≠ "") (child : String) :
    join parent child = parent ++ "_" ++ child := by
  simp [join, h]

/-- A joined name letter by letter. -/
theorem toList_join {parent : String} (h : parent ≠ "") (child : String) :
    (join parent child).toList = parent.toList ++ separator :: child.toList := by
  simp [join_of_ne_empty h, separator]

/-- A name is below a parent if it begins with the parent and a separator, and the rest is its name
there. -/
theorem within?_eq_some_iff {parent name child : String} :
    within? parent name = some child ↔
      name.toList = parent.toList ++ separator :: child.toList := by
  simp only [within?, Option.map_eq_some_iff, afterFront?_eq_some_iff]
  constructor
  · rintro ⟨rest, h, rfl⟩
    simp [h]
  · intro h
    exact ⟨child.toList, by simp [h], by simp⟩

/-- A name put under a parent is taken out again. -/
@[simp] theorem within?_join {parent : String} (h : parent ≠ "") (child : String) :
    within? parent (join parent child) = some child := by
  rw [within?_eq_some_iff, toList_join h]

/-- Joining is associative: an address may be built from either end. -/
theorem join_assoc (a b c : String) (hb : b ≠ "") : join (join a b) c = join a (join b c) := by
  by_cases ha : a = ""
  · simp [ha]
  · have : a ++ "_" ++ b ≠ "" := by simp [ha]
    simp [join_of_ne_empty, ha, hb, String.append_assoc]

end DeviceBlob.Name
