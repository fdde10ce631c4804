import DeviceBlob.DataType
import DeviceBlob.Text.Blank
import DeviceBlob.Text.Decimal
import DeviceBlob.Text.Pieces

/-!
# Parameters

`Params` gives the arrays of a layout their capacities by name.  The parameters of a part of a type
are the same numbers under shorter names: `inside` keeps what stands below a prefix and takes the
prefix off, and `prefixed` puts it on.  A set of parameters is written as `a=1,b=2`.
-/

namespace DeviceBlob

/-- Capacities by parameter name.  A value may be any integer; `capacity` decides whether it is
acceptable. -/
@[ext]
structure Params where
  /-- The values by name. -/
  values : SortedMap String Int64
  deriving DecidableEq

namespace Params

/-- No parameters. -/
def empty : Params := ⟨∅⟩

instance : EmptyCollection Params := ⟨empty⟩

instance : Inhabited Params := ⟨empty⟩

/-- The value of a parameter. -/
def get? (params : Params) (name : String) : Option Int64 := params.values.get? name

/-- The parameters with one more, or with another value for one. -/
def insert (params : Params) (name : String) (value : Int64) : Params :=
  ⟨params.values.insert name value⟩

/-- The parameters of a list; of two with one name the later counts. -/
def ofList (entries : List (String × Int64)) : Params := ⟨SortedMap.ofList entries⟩

/-- The parameters in the order of their names. -/
def toList (params : Params) : List (String × Int64) := params.values.entries

/-- The parameters with all of another set, which win over its own. -/
def union (params other : Params) : Params := ⟨params.values.union other.values⟩

/-! ### Scopes -/

/-- The parameters below a prefix, without it. -/
def inside (params : Params) (parent : String) : Params :=
  ofList (params.toList.filterMap fun (name, value) =>
    (Name.within? parent name).map (·, value))

/-- The parameters with a prefix before each name. -/
def prefixed (params : Params) (parent : String) : Params :=
  ofList (params.toList.map fun (name, value) => (Name.join parent name, value))

/-! ### Capacities -/

/-- The capacity that a value stands for, which must be at least one and at most `max`. -/
def capacity (name : String) (value : Int64) (max : Nat) : Except Error Nat :=
  if 1 ≤ value.toInt ∧ value.toInt ≤ max then .ok value.toInt.toNat
  else .error (.invalidParameter name value max)

/-- The parameter with the given name, checked on behalf of a type. -/
def require (params : Params) (type : String) (max : Nat) (name : String) :
    Except Error (String × Int64) := do
  match params.get? name with
  | none => throw (.missingParameter type name)
  | some value =>
    let _ ← capacity name value max
    return (name, value)

/-- Exactly the parameters that a type depends on, each of them checked. -/
def requiredBy (params : Params) (type : DataType) (max : Nat) : Except Error Params := do
  return ofList (← type.parameterNames.mapM (params.require type.name max))

/-! ### Text form -/

/-- The parameters as text. -/
def toText (params : Params) : String :=
  String.intercalate ","
    (params.toList.map fun (name, value) => name ++ "=" ++ toString value.toInt)

/-- The parameter that a piece of text between commas describes. -/
def ofPiece (piece : List Char) : Except Error (String × Int64) :=
  match Text.cutFirst '=' piece with
  | none => .error (.invalidSchema (.malformedParameter (String.ofList piece)))
  | some (name, value) =>
    match Text.int64? (Text.trim (String.ofList value)) with
    | none => .error (.invalidSchema (.parameterNotInteger (String.ofList name)))
    | some value => .ok (Text.trim (String.ofList name), value)

/-- Reads parameters from text.  Blanks around names and values do not count, and neither do empty
pieces between commas. -/
def ofText (text : String) : Except Error Params := do
  let pieces := (Text.pieces ',' text.toList).map Text.trimChars
  return ofList (← (pieces.filter (!·.isEmpty)).mapM ofPiece)

end Params

end DeviceBlob
