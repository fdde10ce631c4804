import DeviceBlob.Blob.Slots

/-!
# Reading value trees

The contents of a blob as a value tree, in two forms.  The flat form has one entry for each accessor
of the layout; the nested form follows the records of the layout.  In both an array is the list of
the elements that it holds, padding is left out, and the count in an array's header is not looked
at.
-/

namespace DeviceBlob.Layout

/-- The value of bytes that hold a scalar or a label. -/
def valueOf (layout : Layout) (bytes : Bytes) : Value :=
  (layout.read? bytes).getD .emptyMap

/-! ### Flat form -/

mutual

/-- The entries for a layout that has the given address and starts at the given offset. -/
def flatAt (bytes : Bytes) (address : String) (offset : Nat) : Layout → List (String × Value)
  | record _ fields => flatFields bytes address offset fields
  | padding _ => []
  | scalar kind => [(address, kind.read (bytes.slice offset kind.width))]
  | enum type => [(address, type.read (bytes.slice offset 4))]
  | array name capacity element =>
    let region := bytes.slice offset (size (.array name capacity element))
    let items := (Slots.occupied capacity element region).map fun (_, content) =>
      Value.ofEntries (flatAt content "" 0 element)
    [(address, .list items)]

/-- The entries for consecutive fields below the given address, from the given offset on. -/
def flatFields (bytes : Bytes) (address : String) (offset : Nat) :
    List (String × Layout) → List (String × Value)
  | [] => []
  | (name, layout) :: rest =>
    flatAt bytes (Name.join address name) offset layout ++
      flatFields bytes address (offset + layout.size) rest

end

/-- The contents of a blob in flat form. -/
def flatTree (bytes : Bytes) : Layout → Value
  | array _ capacity element =>
    .list ((Slots.occupied capacity element bytes).map fun (_, content) =>
      Value.ofEntries (flatAt content "" 0 element))
  | record _ fields => .ofEntries (flatFields bytes "" 0 fields)
  | leaf => .ofEntries (flatAt bytes Value.rootField 0 leaf)

/-! ### Nested form -/

mutual

/-- The value of the bytes of a part of a blob. -/
def nestedValue (bytes : Bytes) : Layout → Value
  | scalar kind => kind.read bytes
  | enum type => type.read bytes
  | padding kind => kind.read bytes
  | record _ fields => .ofEntries (nestedFields bytes 0 fields)
  | array _ capacity element =>
    .list ((Slots.occupied capacity element bytes).map fun (_, content) =>
      nestedValue content element)

/-- The entries for consecutive fields, from the given offset on. -/
def nestedFields (bytes : Bytes) (offset : Nat) : List (String × Layout) → List (String × Value)
  | [] => []
  | (name, layout) :: rest =>
    let here := if layout.isPadding then []
      else [(name, nestedValue (bytes.slice offset layout.size) layout)]
    here ++ nestedFields bytes (offset + layout.size) rest

end

/-- The contents of a blob in nested form. -/
def nestedTree (bytes : Bytes) (layout : Layout) : Value :=
  match layout with
  | record _ _ => nestedValue bytes layout
  | array _ _ _ => nestedValue bytes layout
  | leaf => .ofEntries (nestedFields bytes 0 [(Value.rootField, leaf)])

end DeviceBlob.Layout
