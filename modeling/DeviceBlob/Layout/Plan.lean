import DeviceBlob.Params
import DeviceBlob.VectorRun

/-!
# Size plans

A size plan is the sum that a device computes to find out how many bytes a type takes once its
parameters are known.  It is made without any parameters, so it can be written down as code, and it
can also be evaluated here.
-/

namespace DeviceBlob

/-- How the size of a type is computed. -/
inductive SizePlan where
  /-- A size without parameters. -/
  | fixed (bytes : Nat)
  /-- A header and, for each element of the array with the given name, the size of the item. -/
  | array (typeName elementName : String) (item : SizePlan)
  /-- The sum of terms, one for each field of the record with the given name and for each padding
  between them. -/
  | record (typeName : String) (terms : List (String × SizePlan))
  deriving Inhabited

namespace SizePlan

/-- The size if it depends on no parameter. -/
def fixed? : SizePlan → Option Nat
  | fixed bytes => some bytes
  | _ => none

/-- The name of the type that a plan with parameters belongs to. -/
def typeName? : SizePlan → Option String
  | fixed _ => none
  | array name _ _ => some name
  | record name _ => some name

/-- The term for the padding behind the field at the given position. -/
def paddingTerm (runs : List VectorRun) (position : Nat) : List (String × SizePlan) :=
  ((runs.find? (·.last = position)).map fun run =>
    (run.paddingName, fixed run.kind.width)).toList

/-- The plan of a record with the given terms, which is fixed if all of them are. -/
def ofTerms (plain : Bool) (name : String) (terms : List (String × SizePlan)) : SizePlan :=
  if plain then fixed (terms.foldr (fun (_, plan) rest => plan.fixed?.getD 0 + rest) 0)
  else record name terms

mutual

/-- The plan of a type. -/
def ofType (packing : Packing) : DataType → SizePlan
  | .scalar kind => fixed kind.width
  | .enum _ => fixed Scalar.int32.width
  | .array name element => array name element.name (ofType packing element)
  | .record name fields =>
    ofTerms (DataType.fieldsPlain fields) name
      (fieldTerms packing (VectorRun.padded packing fields) 0 fields)

/-- The terms of consecutive fields, of which the first has the given position in its record. -/
def fieldTerms (packing : Packing) (runs : List VectorRun) (position : Nat) :
    List (String × DataType) → List (String × SizePlan)
  | [] => []
  | (name, type) :: rest =>
    (name, ofType packing type) :: paddingTerm runs position ++
      fieldTerms packing runs (position + 1) rest

end

/-! ### Evaluation -/

/-- The greatest capacity that a plan takes. -/
def greatestCapacity : Nat := 18446744073709551615

/-- The size of the header of an array. -/
def headerBytes : Nat := 8

/-- The capacity that the parameters give to the array with the given name. -/
def capacityOf (typeName : String) (params : Params) : Except Error Nat :=
  match params.get? DataType.capacityParameter with
  | some value => Params.capacity DataType.capacityParameter value greatestCapacity
  | none => .error (.missingParameter typeName DataType.capacityParameter)

mutual

/-- The size under parameters. -/
def evaluate (params : Params) : SizePlan → Except Error Nat
  | fixed bytes => .ok bytes
  | array name _ item => do
    let capacity ← capacityOf name params
    let bytes ← evaluate (params.inside DataType.itemPrefix) item
    return headerBytes + capacity * bytes
  | record _ terms => evaluateTerms params terms

/-- The sum of terms under parameters. -/
def evaluateTerms (params : Params) : List (String × SizePlan) → Except Error Nat
  | [] => .ok 0
  | (name, plan) :: rest => do
    let bytes ← evaluate (params.inside name) plan
    let others ← evaluateTerms params rest
    return bytes + others

end

end SizePlan

end DeviceBlob
