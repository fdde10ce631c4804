import DeviceBlob.Code.CType
import DeviceBlob.Code.TypeCode
import DeviceBlob.Layout.Basic

/-!
# Code for plain records

A plain record is a struct with exactly the bytes of its layout, so nested records are opened and
padding has members too.  Kernels can copy it member by member, and load the vectors among its
members as a whole.
-/

namespace DeviceBlob.Code

/-- The member for a place of a layout; arrays have no place in a plain record. -/
def placeMember? (place : Field) : Option Member :=
  match place.content with
  | .scalar kind => some ⟨kind.cType, place.name, none⟩
  | .padding kind => some ⟨kind.cType, place.name, none⟩
  | .enum enum => some ⟨Scalar.int32.cType, place.name, some enum.name⟩
  | _ => none

/-- The struct of a plain record. -/
def plainDeclaration (names : Names) (type : DataType) (layout : Layout) : Declaration :=
  .struct (.plain (Names.sizeMacro type) layout.size) (names.typeName type)
    (layout.accessors.filterMap placeMember?)

/-- The function that measures a plain record. -/
def plainSizeof (names : Names) (type : DataType) : Function :=
  sizeofFunction names type [.line s!"return sizeof({names.typeName type});"]

/-- The function that copies a plain record. -/
def copyFunction (names : Names) (type : DataType) (layout : Layout) : Function where
  result := "void"
  name := names.copy type
  arguments := [s!"{names.spaced type}* source", s!"{names.spaced type}* destination"]
  body := .line "if(destination == 0 || source == 0) return;" ::
    layout.accessors.map fun place =>
      .line s!"destination->{place.name} = source->{place.name};"

/-! ### Vectors -/

/-- A vector among the members of a plain record. -/
structure VectorMember where
  /-- The name of the vector. -/
  name : String
  /-- The member that holds its first component. -/
  first : String
  /-- The type and the number of its components. -/
  run : VectorRun
  deriving DecidableEq, Repr

/-- The vectors of three and four components among the fields of a record found under the given
name. -/
def ownVectors (parent : String) (fields : List (String × DataType)) : List VectorMember :=
  (VectorRun.ofFields fields).filterMap fun run =>
    if 3 ≤ run.length then
      fields[run.start]?.map fun first =>
        ⟨Name.join parent run.memberName, Name.join parent first.1, run⟩
    else none

mutual

/-- The vectors in a record found under the given name, those of the record itself before those of
its fields. -/
def vectorsUnder (parent : String) : DataType → List VectorMember
  | .record _ fields => ownVectors parent fields ++ fieldVectors parent fields
  | _ => []

/-- The vectors in the fields of a record found under the given name. -/
def fieldVectors (parent : String) : List (String × DataType) → List VectorMember
  | [] => []
  | (name, type) :: rest => vectorsUnder (Name.join parent name) type ++ fieldVectors parent rest

end

/-- The function that loads a vector. -/
def vectorFunction (names : Names) (type : DataType) (member : VectorMember) : Function where
  result := member.run.cType
  name := names.vector type member.name
  arguments := [s!"{names.spaced type}* self"]
  body := [.line s!"return vload{member.run.length}(0, &self->{member.first});"]

/-- The code for a plain record with the given layout.  The functions that load vectors are made
where they are asked for, and nothing is copied into memory that kernels cannot write. -/
def ofPlainRecord (names : Names) (vectorAccessors : Bool) (type : DataType) (layout : Layout) :
    TypeCode where
  declaration := plainDeclaration names type layout
  functions :=
    plainSizeof names type ::
      (if names.space.isWritable then [copyFunction names type layout] else []) ++
      (if vectorAccessors then (vectorsUnder "" type).map (vectorFunction names type) else [])

end DeviceBlob.Code
