import DeviceBlob.Error
import DeviceBlob.Json.Basic
import DeviceBlob.Name
import DeviceBlob.SortedMap

/-!
# Value trees

A value tree is what a blob holds, seen from outside: leaves, lists and maps.  The fields of a blob
have names in one flat space, so a tree is brought into that form before it is stored: `leaves`
lists its leaves with their addresses, where the address of a leaf joins the snake-case keys and the
list positions on the way to it, and `flatten` is the map of these.
-/

namespace DeviceBlob

/-- A tree of values.  The entries of a map are listed by increasing key, each key once; `ofEntries`
brings any entries into that order. -/
inductive Value where
  | bool (value : Bool)
  | int (value : Int64)
  | float (value : Double)
  /-- The label of an enum. -/
  | label (text : String)
  | list (items : List Value)
  | map (entries : List (String × Value))
  deriving Inhabited

namespace Value

/-- The map with the given entries; of two with one key the later counts. -/
def ofEntries (entries : List (String × Value)) : Value :=
  map (SortedMap.ofList entries).entries

/-- The map without entries. -/
def emptyMap : Value := map []

/-- A map with one more entry, or with another value for a key.  Other values stay as they are. -/
def withEntry (value : Value) (key : String) (item : Value) : Value :=
  match value with
  | map entries => ofEntries (entries ++ [(key, item)])
  | value => value

/-- What sort of value it is, in one word. -/
def kindName : Value → String
  | bool _ => "bool"
  | int _ => "int"
  | float _ => "float"
  | label _ => "label"
  | list _ => "list"
  | map _ => "map"

/-! ### Leaves taken as another kind -/

/-- The value as an integer; truth counts as one. -/
def int? : Value → Option Int64
  | int value => some value
  | bool value => some (if value then 1 else 0)
  | _ => none

/-- The value as a floating-point number. -/
def double? : Value → Option Double
  | float value => some value
  | int value => some (.ofInt value.toInt)
  | _ => none

/-- The value as a truth value; positive integers are true. -/
def bool? : Value → Option Bool
  | bool value => some value
  | int value => some (0 < value.toInt)
  | _ => none

/-- The text of a label. -/
def label? : Value → Option String
  | label text => some text
  | _ => none

/-- The number of items of a list. -/
def listLength? : Value → Option Nat
  | list items => some items.length
  | _ => none

/-- The keys of a map. -/
def keys? : Value → Option (List String)
  | map entries => some (entries.map (·.1))
  | _ => none

/-! ### Flat form -/

/-- The name of the only field of a blob that is a leaf. -/
def rootField : String := "value"

mutual

/-- The leaves of a tree found at an address, each with its own address. -/
def leavesAt (address : String) : Value → List (String × Value)
  | list items => itemLeaves address 0 items
  | map entries => entryLeaves address entries
  | leaf => [(address, leaf)]

/-- The leaves of the items of a list of which the first is at the given position. -/
def itemLeaves (address : String) (position : Nat) : List Value → List (String × Value)
  | [] => []
  | item :: rest =>
    leavesAt (Name.join address (toString position)) item ++
      itemLeaves address (position + 1) rest

/-- The leaves of the entries of a map. -/
def entryLeaves (address : String) : List (String × Value) → List (String × Value)
  | [] => []
  | (key, item) :: rest =>
    leavesAt (Name.join address (Name.snake key)) item ++ entryLeaves address rest

end

/-- The leaves of a tree with their addresses.  A tree that is a leaf itself has the address of the
root field. -/
def leaves : Value → List (String × Value)
  | list items => itemLeaves "" 0 items
  | map entries => entryLeaves "" entries
  | leaf => [(rootField, leaf)]

/-- The leaves of a tree by address. -/
def flatten (value : Value) : SortedMap String Value :=
  SortedMap.ofList value.leaves

/-! ### Text form -/

/-- How floating-point numbers are shown: plainly from `0.0001` on and below `10^16`, and else with
an exponent that shows its sign only if it is negative.  Halfway between two equally short numbers
the greater magnitude is taken. -/
def numberStyle : NumberStyle := ⟨-4, 16, false, .awayFromZero⟩

mutual

/-- The value as it is shown.  Two leaves of one kind are shown alike exactly if they are equal,
where all patterns that are not numbers count as one. -/
def text : Value → String
  | bool value => if value then "true" else "false"
  | int value => toString value.toInt
  | float value => numberStyle.write value
  | label text => text
  | list items => "[" ++ String.intercalate ", " (itemTexts items) ++ "]"
  | map entries => "\x7b" ++ String.intercalate ", " (entryTexts entries) ++ "\x7d"

/-- The items of a list as they are shown. -/
def itemTexts : List Value → List String
  | [] => []
  | item :: rest => text item :: itemTexts rest

/-- The entries of a map as they are shown. -/
def entryTexts : List (String × Value) → List String
  | [] => []
  | (key, item) :: rest => (key ++ ": " ++ text item) :: entryTexts rest

end

/-! ### JSON form -/

mutual

/-- The tree that a JSON value stands for.  Null stands for none; of repeated names the last one
counts. -/
def ofJson : Json → Except Error Value
  | .null => .error (.invalidSchema .nullValue)
  | .bool value => .ok (bool value)
  | .integer value =>
    if Int64.minValue.toInt ≤ value ∧ value ≤ Int64.maxValue.toInt then .ok (int (.ofInt value))
    else .ok (float (.ofInt value))
  | .double value => .ok (float value)
  | .string text => .ok (label text)
  | .array items => do return list (← (ofItems items).mapM id)
  | .object members => do
    let entries := (SortedMap.ofList (ofMembers members)).entries
    return map (← entries.mapM fun (key, item) => item.map (key, ·))

/-- The trees that the items of an array stand for. -/
def ofItems : List Json → List (Except Error Value)
  | [] => []
  | item :: rest => ofJson item :: ofItems rest

/-- The trees that the members of an object stand for. -/
def ofMembers : List (String × Json) → List (String × Except Error Value)
  | [] => []
  | (name, item) :: rest => (name, ofJson item) :: ofMembers rest

end

mutual

/-- The tree as JSON.  A number that is not finite becomes a string. -/
def toJson : Value → Json
  | bool value => .bool value
  | int value => .integer value.toInt
  | float value =>
    if value.isNaN || value.isInfinite then .string (numberStyle.write value) else .double value
  | label text => .string text
  | list items => .array (itemsToJson items)
  | map entries => .object (entriesToJson entries)

/-- The items of a list as JSON. -/
def itemsToJson : List Value → List Json
  | [] => []
  | item :: rest => toJson item :: itemsToJson rest

/-- The entries of a map as JSON. -/
def entriesToJson : List (String × Value) → List (String × Json)
  | [] => []
  | (key, item) :: rest => (key, toJson item) :: entriesToJson rest

end

end Value

end DeviceBlob
