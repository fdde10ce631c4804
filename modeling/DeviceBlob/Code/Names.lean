import DeviceBlob.Code.Space
import DeviceBlob.DataType

/-!
# Names in device code

Each generated name is made of the snake case of a type's name and the address space.  Plain records
and enums have one declaration for all spaces, so the names of their types leave the space out; all
functions carry it.
-/

namespace DeviceBlob

/-- How an address space shows in a name. -/
inductive NamingMode where
  /-- By its letter behind the type's name. -/
  | short
  /-- By its word in front of the type's name. -/
  | full
  deriving DecidableEq, Repr, Inhabited

/-- The naming mode with the given name. -/
def NamingMode.ofText : String → Except Error NamingMode
  | "short" => .ok .short
  | "full" => .ok .full
  | text => .error (.invalidSchema (.unknownNaming text))

/-- The names of one address space. -/
structure Names where
  /-- The address space. -/
  space : AddressSpace
  /-- How the space shows in a name. -/
  naming : NamingMode
  deriving DecidableEq, Repr

namespace Names

/-- The name of a type in snake case. -/
def snake (type : DataType) : String := Name.snake type.name

/-- The part of a function's name that stands for a type. -/
def stem (names : Names) (type : DataType) : String :=
  match names.naming with
  | .short => s!"{snake type}_{names.space.letter}t"
  | .full => s!"{names.space.word}_{snake type}_t"

/-- The type is declared once for all address spaces. -/
def isShared : DataType → Bool
  | .enum _ => true
  | .record _ fields => DataType.fieldsPlain fields
  | _ => false

/-- The name of a declared type. -/
def typeName (names : Names) (type : DataType) : String :=
  if isShared type then s!"{snake type}_t" else names.stem type

/-- The name of a declared type behind the qualifier of the space. -/
def spaced (names : Names) (type : DataType) : String :=
  s!"{names.space.qualifier} {names.typeName type}"

/-! ### Functions -/

/-- The function that measures a type. -/
def sizeof (names : Names) (type : DataType) : String := s!"sizeof_{names.stem type}"

/-- The function that points the members of a type into a blob. -/
def deserialize (names : Names) (type : DataType) : String := s!"deserialize_{names.stem type}"

/-- The function that copies a plain record. -/
def copy (names : Names) (type : DataType) : String := s!"copy_{names.stem type}"

/-- The function that finds an element of an array. -/
def item (names : Names) (type : DataType) : String := s!"get_{names.stem type}_item"

/-- The function that empties an array. -/
def init (names : Names) (type : DataType) : String := s!"init_{names.stem type}"

/-- The function that loads a vector out of a plain record. -/
def vector (names : Names) (type : DataType) (member : String) : String :=
  s!"get_{names.stem type}_{member}"

/-! ### Constants -/

/-- The constant for the size of a plain record. -/
def sizeMacro (type : DataType) : String := s!"{Text.toUpper (snake type)}_SIZE"

/-- The constant for the ordinal of a label. -/
def enumConstant (type : DataType) (label : String) : String :=
  s!"{Text.toUpper (snake type)}_{Text.toUpper (Name.snake label)}"

/-- The member of an enum for a label. -/
def enumMember (type : DataType) (label : String) : String :=
  s!"{snake type}_{Name.snake label}"

end Names

end DeviceBlob
