import DeviceBlob.Error

/-!
# Address spaces

A device keeps its data in four address spaces, and a pointer is only good for one of them, so the
same type is generated anew for each space that it is used in.
-/

namespace DeviceBlob

/-- Where on the device a blob lives. -/
inductive AddressSpace where
  | privateMemory
  | localMemory
  | constantMemory
  | globalMemory
  deriving DecidableEq, Repr, Inhabited

namespace AddressSpace

/-- The address spaces. -/
def all : List AddressSpace := [.privateMemory, .localMemory, .constantMemory, .globalMemory]

/-- The space in one word. -/
def word : AddressSpace → String
  | .privateMemory => "private"
  | .localMemory => "local"
  | .constantMemory => "constant"
  | .globalMemory => "global"

/-- The qualifier of a pointer into the space. -/
def qualifier (space : AddressSpace) : String := "__" ++ space.word

/-- The letter that stands for the space in a short name. -/
def letter : AddressSpace → Char
  | .privateMemory => 'p'
  | .localMemory => 'l'
  | .constantMemory => 'c'
  | .globalMemory => 'g'

/-- Kernels may write there. -/
def isWritable (space : AddressSpace) : Bool := space != .constantMemory

/-- The space with the given word or qualifier. -/
def ofText (text : String) : Except Error AddressSpace :=
  match all.find? fun space => text = space.word || text = space.qualifier with
  | some space => .ok space
  | none => .error (.invalidSchema (.unknownSpace text))

end AddressSpace

end DeviceBlob
