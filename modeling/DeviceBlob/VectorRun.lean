import DeviceBlob.DataType

/-!
# Runs of vector components

Consecutive scalar fields `position_x`, `position_y`, `position_z`, or `color_0`, `color_1` and so
on, are the components of a vector.  A device keeps a vector of three components in the space of
four, so in an aligned layout such a run is followed by one scalar of padding.
-/

namespace DeviceBlob

/-- Whether layouts follow the device's alignment of vectors. -/
inductive Packing where
  /-- A vector of three components takes the space of four. -/
  | aligned
  /-- Fields follow one another without padding. -/
  | unaligned
  deriving DecidableEq, Repr, Inhabited

namespace Packing

/-- The packing in one word. -/
def name : Packing → String
  | aligned => "aligned"
  | unaligned => "unaligned"

end Packing

/-- A field name taken apart into a stem and a component. -/
structure Component where
  /-- The name before the component and its separator; empty for a bare component. -/
  stem : String
  /-- Which of the component sets is used. -/
  set : Nat
  /-- The position of the component in its set. -/
  position : Nat
  deriving DecidableEq, Repr

namespace Component

/-- The two ways to name the components of a vector. -/
def sets : List (List String) :=
  [["x", "y", "z", "w"], ["0", "1", "2", "3"]]

/-- The components of the sets, each with its set and its position. -/
def all : List (String × Nat × Nat) :=
  sets.zipIdx.flatMap fun (names, set) =>
    names.zipIdx.map fun (name, position) => (name, set, position)

/-- The components that a vector of the given length is declared with. -/
def ofLength (count : Nat) : List String :=
  ["x", "y", "z", "w"].take count

/-- The stem of a field name that ends in the given component. -/
def stem? (component name : String) : Option String :=
  if name = component then some ""
  else (Text.beforeBack? (Name.separator :: component.toList) name.toList).bind fun stem =>
    if stem.isEmpty then none else some (String.ofList stem)

/-- The component that a field name ends in. -/
def ofName? (name : String) : Option Component :=
  all.findSome? fun (component, set, position) =>
    (stem? component name).map fun stem => ⟨stem, set, position⟩

end Component

/-- Consecutive fields of a record that form one vector. -/
structure VectorRun where
  /-- The common stem of the fields' names; empty for bare components. -/
  stem : String
  /-- The kind of every component. -/
  kind : Scalar
  /-- The position of the first component among the record's fields. -/
  start : Nat
  /-- The number of components, from two to four. -/
  length : Nat
  deriving DecidableEq, Repr

namespace VectorRun

/-- The position of the last component among the record's fields. -/
def last (run : VectorRun) : Nat := run.start + run.length - 1

/-- A vector of three components takes the space of four. -/
def needsPadding (run : VectorRun) : Bool := run.length == 3

/-- The name of the padding behind the vector. -/
def paddingName (run : VectorRun) : String := Name.join run.stem "padding"

/-- The name of the vector as a whole: its stem, or else the components it has. -/
def memberName (run : VectorRun) : String :=
  if run.stem.isEmpty then String.ofList ("xyzw".toList.take run.length) else run.stem

/-- The fields that a vector with the given stem and number of components consists of. -/
def declare (stem : String) (type : DataType) (count : Nat) : List (String × DataType) :=
  (Component.ofLength count).map fun component => (Name.join stem component, type)

/-- The scalar kind and the component of a field that can belong to a vector. -/
def component? (field : String × DataType) : Option (Scalar × Component) :=
  field.2.scalar?.bind fun kind => (Component.ofName? field.1).map (kind, ·)

/-- How many fields at the front of the list go on with a vector, the next component of which is
the given one. -/
def countFrom (kind : Scalar) (next : Component) : List (String × DataType) → Nat
  | [] => 0
  | field :: rest =>
    if next.position < 4 ∧ component? field = some (kind, next)
    then countFrom kind ⟨next.stem, next.set, next.position + 1⟩ rest + 1
    else 0

/-- The run that starts at the first field of the list, which is at the given position. -/
def startingAt? (start : Nat) (fields : List (String × DataType)) : Option VectorRun :=
  match fields.head?.bind component? with
  | some (kind, ⟨stem, set, 0⟩) =>
    let length := countFrom kind ⟨stem, set, 0⟩ fields
    if 2 ≤ length then some ⟨stem, kind, start, length⟩ else none
  | _ => none

/-- The runs among fields of which the first is at the given position. -/
def runsFrom (start : Nat) : List (String × DataType) → List VectorRun
  | [] => []
  | field :: rest =>
    (startingAt? start (field :: rest)).toList ++ runsFrom (start + 1) rest

/-- The vectors of a record, in the order of its fields. -/
def ofFields (fields : List (String × DataType)) : List VectorRun :=
  runsFrom 0 fields

/-- The vectors of a record that are followed by padding. -/
def padded (packing : Packing) (fields : List (String × DataType)) : List VectorRun :=
  match packing with
  | .unaligned => []
  | .aligned => (ofFields fields).filter (·.needsPadding)

end VectorRun

end DeviceBlob
