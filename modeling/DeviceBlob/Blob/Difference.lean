import DeviceBlob.Blob.Slots

/-!
# Differences between blobs

Two blobs are compared by what their fields show as text.  The fields of an element are named after
the array and the slot it is in, and an array counts as a field itself, with its capacity.  Patterns
that are not numbers are shown alike, so they count as equal.
-/

namespace DeviceBlob

/-- A field that two blobs show differently. -/
structure Difference where
  /-- The name of the field. -/
  field : String
  /-- What the first blob shows, if it has the field. -/
  left : Option String
  /-- What the second blob shows, if it has the field. -/
  right : Option String
  deriving DecidableEq, Repr

namespace Difference

/-- One side of a difference as text. -/
def sideText (side : Option String) : String := side.getD "<absent>"

/-- The difference as text. -/
def text (d : Difference) : String :=
  d.field ++ ": " ++ sideText d.left ++ " != " ++ sideText d.right

end Difference

namespace Layout

mutual

/-- What a layout with the given address, from the given offset on, shows as text. -/
def textsAt (bytes : Bytes) (address : String) (offset : Nat) : Layout → List (String × String)
  | record _ fields => fieldTexts bytes address offset fields
  | padding _ => []
  | scalar kind => [(address, (kind.read (bytes.slice offset kind.width)).text)]
  | enum type => [(address, (type.read (bytes.slice offset 4)).text)]
  | array name capacity element =>
    let region := bytes.slice offset (size (.array name capacity element))
    let items := (Slots.occupied capacity element region).map fun (slot, content) =>
      textsAt content (Name.join address (toString slot)) 0 element
    (Name.join address "capacity", toString capacity) :: items.flatten

/-- What consecutive fields below the given address, from the given offset on, show as text. -/
def fieldTexts (bytes : Bytes) (address : String) (offset : Nat) :
    List (String × Layout) → List (String × String)
  | [] => []
  | (name, layout) :: rest =>
    textsAt bytes (Name.join address name) offset layout ++
      fieldTexts bytes address (offset + layout.size) rest

end

/-- The address under which the contents of a whole blob stand: a single value has a name, the
fields of a record and the slots of an array are named by themselves. -/
def rootAddress : Layout → String
  | record _ _ => ""
  | array _ _ _ => ""
  | _ => Value.rootField

/-- What the fields of a blob show as text. -/
def texts (layout : Layout) (bytes : Bytes) : SortedMap String String :=
  SortedMap.ofList (layout.textsAt bytes layout.rootAddress 0)

end Layout

namespace Difference

/-- The differences between two tables of shown fields, in the order of the fields. -/
def between (left right : SortedMap String String) : List Difference :=
  (left.union right).keys.filterMap fun field =>
    let d : Difference := ⟨field, left.get? field, right.get? field⟩
    if d.left = d.right then none else some d

end Difference

end DeviceBlob
