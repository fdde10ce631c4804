import DeviceBlob.Code.CType
import DeviceBlob.Code.TypeCode

/-!
# Code for arrays

Kernels see an array as pointers to its capacity, to the count of its elements and to its first
slot.  They look up elements by their slots, and in writable memory they can make every slot empty.
-/

namespace DeviceBlob.Code

/-- The struct of pointers. -/
def arrayDeclaration (names : Names) (type : DataType) : Declaration :=
  let integer := s!"{names.space.qualifier} {Scalar.int32.cType}*"
  .struct .array (names.typeName type)
    [⟨integer, "capacity", none⟩, ⟨integer, "count", none⟩,
      ⟨s!"{names.space.qualifier} char*", "first", none⟩]

/-- The function that measures an array by its capacity and its first element. -/
def arraySizeof (names : Names) (type element : DataType) : Function :=
  sizeofFunction names type
    [.line s!"int capacity = *(({names.space.qualifier} int*)blob);",
      .measureElement (names.sizeof element),
      .line "return 8 + capacity * item_size;"]

/-- The function that sets the pointers. -/
def arrayDeserialize (names : Names) (type : DataType) : Function :=
  deserializeFunction names type
    [.line s!"self->capacity = ({names.space.qualifier} int*)(blob);",
      .line s!"self->count = ({names.space.qualifier} int*)(blob + 4);",
      .line "self->first = blob + 8;"]

/-- The function that finds an element.  Plain elements are returned as a pointer, and others fill
the struct that the caller gives. -/
def itemFunction (names : Names) (type element : DataType) : Function :=
  let guard := .line "if(index < 0 || index >= *array.capacity)"
  let seek := .seekElement (names.sizeof element)
  let place := [s!"{names.typeName type} array", "int index"]
  if element.isPlain then {
    result := s!"{names.spaced element}*"
    name := names.item type
    arguments := place
    body := [guard, .line "\treturn 0;", seek,
      .line s!"return ({names.spaced element}*)(array.first + offset);"] }
  else {
    result := "void"
    name := names.item type
    arguments := place ++ [s!"{names.typeName element}* item"]
    body := [guard, .line "\treturn;", seek, .fillItem (names.deserialize element)] }

/-- The function that writes the header and makes every slot empty.  No element exists yet to be
measured, so the size of an element with parameters is an argument. -/
def initFunction (names : Names) (type element : DataType) : Function :=
  let qualifier := names.space.qualifier
  let itemSize := if element.isPlain then s!"sizeof({names.typeName element})" else "item_size"
  { result := "void"
    name := names.init type
    arguments := [s!"{qualifier} char* blob", "int capacity"] ++
      if element.isPlain then [] else ["unsigned long item_size"]
    body :=
      [.line s!"*(({qualifier} int*)blob) = capacity;",
        .line s!"*(({qualifier} int*)(blob + 4)) = 0;",
        .line "for(int i = 0; i < capacity; i++)",
        .line s!"\t*(({qualifier} int*)(blob + 8 + i * {itemSize})) = -1;"] }

/-- The code for an array of the given elements. -/
def ofArray (names : Names) (type element : DataType) : TypeCode where
  declaration := arrayDeclaration names type
  functions :=
    [arraySizeof names type element, arrayDeserialize names type,
      itemFunction names type element] ++
      if names.space.isWritable then [initFunction names type element] else []

end DeviceBlob.Code
