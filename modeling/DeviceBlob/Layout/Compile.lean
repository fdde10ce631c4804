import DeviceBlob.Layout.Basic

/-!
# From types to layouts

`place` gives every field of a type its bytes, with the capacities taken from the parameters and
padding behind vectors of three components.  A field sees the parameters below its own name only, so
the same record can be used twice with different capacities.  `Compiler.layout` checks all
parameters of a type before it starts.  It makes each layout anew; `Compiler.cachedLayout` gives the
same layouts from a cache, as long as no two types in the cache have one name and one fingerprint.
-/

namespace DeviceBlob

namespace Layout

/-- The padding behind the field at the given position, as a field of its own. -/
def paddingBehind (runs : List VectorRun) (position : Nat) : List (String × Layout) :=
  match runs.find? (·.last = position) with
  | some run => [(run.paddingName, padding run.kind)]
  | none => []

/-- The capacity that the parameters give to an array type. -/
def capacityOf (typeName : String) (params : Params) : Except Error Nat :=
  match params.get? DataType.capacityParameter with
  | some value =>
    if 0 ≤ value.toInt then .ok value.toInt.toNat
    else .error (.missingParameter typeName DataType.capacityParameter)
  | none => .error (.missingParameter typeName DataType.capacityParameter)

mutual

/-- The layout of a type. -/
def place (packing : Packing) (params : Params) : DataType → Except Error Layout
  | .scalar kind => .ok (scalar kind)
  | .enum type => .ok (enum type)
  | .record name fields => do
    ofFields name (← placeAll packing params (VectorRun.padded packing fields) 0 fields)
  | .array name element => do
    let capacity ← capacityOf name params
    return array name capacity (← place packing (params.inside DataType.itemPrefix) element)

/-- The layouts of consecutive fields, of which the first has the given position in its record,
with the padding between them. -/
def placeAll (packing : Packing) (params : Params) (runs : List VectorRun) (position : Nat) :
    List (String × DataType) → Except Error (List (String × Layout))
  | [] => .ok []
  | (name, type) :: rest => do
    let layout ← place packing (params.inside name) type
    let others ← placeAll packing params runs (position + 1) rest
    return (name, layout) :: paddingBehind runs position ++ others

end

end Layout

/-- How layouts are made. -/
structure Compiler where
  /-- Whether vectors are padded. -/
  packing : Packing := .aligned
  /-- The greatest capacity that a parameter may ask for. -/
  maxParameter : Nat := 5000
  deriving DecidableEq, Repr

namespace Compiler

instance : Inhabited Compiler := ⟨{}⟩

/-- The layout of a type under parameters, of which those that the type does not depend on are
ignored. -/
def layout (compiler : Compiler) (type : DataType) (params : Params) : Except Error Layout := do
  let required ← params.requiredBy type compiler.maxParameter
  Layout.place compiler.packing required type

/-- Checks that a type depends on no parameter. -/
def checkPlain (type : DataType) : Except Error Unit :=
  if type.isPlain then .ok () else .error (.unsupportedNesting type.name "a plain layout")

/-- The layout of a type that depends on no parameter. -/
def plainLayout (compiler : Compiler) (type : DataType) : Except Error Layout := do
  checkPlain type
  compiler.layout type ∅

end Compiler

end DeviceBlob
