import DeviceBlob.Code.CType
import DeviceBlob.Code.TypeCode
import DeviceBlob.Layout.Plan

/-!
# Code for records with parameters

Where the size of a record depends on parameters, kernels hold a struct of pointers to its fields.
One function measures the record and another one sets the pointers; both walk over the terms of
the record's size plan, which are its fields and the padding between them.
-/

namespace DeviceBlob.Code

/-- How a term of a size plan appears in the struct. -/
inductive TermMember where
  /-- A pointer to data of the given type, which is a label of an enum if one is named. -/
  | pointer (pointee : String) (enum? : Option String)
  /-- A struct of pointers of its own. -/
  | nested (type : DataType)
  /-- Bytes without a value, to which nothing points. -/
  | padding

namespace TermMember

/-- How a field of the given type appears. -/
def ofType (names : Names) : DataType → TermMember
  | .scalar kind => pointer s!"{names.space.qualifier} {kind.cType}" none
  | .enum enum => pointer s!"{names.space.qualifier} {Scalar.int32.cType}" (some enum.name)
  | .record name fields =>
    if DataType.fieldsPlain fields then pointer (names.spaced (.record name fields)) none
    else nested (.record name fields)
  | .array name element => nested (.array name element)

/-- How the term with the given name appears: as the field of that name, or else as padding. -/
def ofTerm (names : Names) (type : DataType) (term : String) : TermMember :=
  match type.field? term with
  | some field => ofType names field
  | none => padding

/-- The member of the struct. -/
def member? (names : Names) (name : String) : TermMember → Option Member
  | pointer pointee enum? => some ⟨pointee ++ "*", name, enum?⟩
  | nested type => some ⟨names.typeName type, name, none⟩
  | padding => none

/-- The statement that sets the member. -/
def assignment? (names : Names) (name : String) : TermMember → Option Statement
  | pointer pointee _ => some (.point name pointee)
  | nested type => some (.fill name (names.deserialize type))
  | padding => none

end TermMember

/-- How far a walk moves on over a term: by its size where that is fixed, and else by what the
function for the term's type measures. -/
def strideOf (names : Names) (type : DataType) (term : String × SizePlan) : Stride :=
  match term.2.fixed?, type.field? term.1 with
  | none, some field => .measured (names.sizeof field)
  | bytes?, _ => .bytes (bytes?.getD 0)

/-- The struct of pointers. -/
def pointerDeclaration (names : Names) (type : DataType) (terms : List (String × SizePlan)) :
    Declaration :=
  .struct .complex (names.typeName type) (terms.filterMap fun term =>
    (TermMember.ofTerm names type term.1).member? names term.1)

/-- The function that adds up the terms. -/
def pointerSizeof (names : Names) (type : DataType) (terms : List (String × SizePlan)) :
    Function :=
  sizeofFunction names type <|
    .line "unsigned long size = 0;" ::
      terms.map (fun term => .advance "size" (strideOf names type term) term.1) ++
      [.line "return size;"]

/-- The statements that set the members and walk on, for consecutive terms.  Behind the last term
there is nothing to walk to. -/
def walkTerms (names : Names) (type : DataType) : List (String × SizePlan) → List Statement
  | [] => []
  | term :: rest =>
    ((TermMember.ofTerm names type term.1).assignment? names term.1).toList ++
      (if rest.isEmpty then [] else [.advance "offset" (strideOf names type term) term.1]) ++
      walkTerms names type rest

/-- The function that sets the pointers. -/
def pointerDeserialize (names : Names) (type : DataType) (terms : List (String × SizePlan)) :
    Function :=
  deserializeFunction names type (.line "unsigned long offset = 0;" :: walkTerms names type terms)

/-- The code for a record with parameters, given the terms of its size plan. -/
def ofPointerRecord (names : Names) (type : DataType) (terms : List (String × SizePlan)) :
    TypeCode where
  declaration := pointerDeclaration names type terms
  functions := [pointerSizeof names type terms, pointerDeserialize names type terms]

end DeviceBlob.Code
