import DeviceBlob.Code.ArrayAccess
import DeviceBlob.Code.PlainRecord
import DeviceBlob.Code.PointerRecord
import DeviceBlob.Code.Unit
import DeviceBlob.Layout.Compile
import DeviceBlob.LinkedList

/-!
# Generating device code

A generator takes types, each for an address space, and adds their code to a unit.  What a type is
made of comes before the type itself, and nothing is generated twice.  When a type fails, the code
of its parts that came before the failure stays in the unit.
-/

namespace DeviceBlob.Code

/-- What the user chooses about the generated code. -/
structure Config where
  /-- How address spaces show in names. -/
  naming : NamingMode := .short
  /-- What the header starts with. -/
  prologue : String := ""
  /-- What the header ends with. -/
  epilogue : String := ""
  /-- Whether functions that load vectors are made. -/
  vectorAccessors : Bool := true
  deriving DecidableEq, Repr

/-- A type that code was generated for. -/
structure Visit where
  /-- The name of the type. -/
  typeName : String
  /-- The fingerprint of the type. -/
  fingerprint : Fingerprint
  /-- The address space. -/
  space : AddressSpace
  deriving DecidableEq

/-- A generator at work. -/
structure Generator where
  /-- What the user chose. -/
  config : Config
  /-- How layouts are made. -/
  compiler : Compiler
  /-- The code generated so far. -/
  unit : CodeUnit
  /-- The types that are done. -/
  visited : List Visit

namespace Generator

/-- The generator at the start. -/
def start (config : Config) (compiler : Compiler) : Generator :=
  ⟨config, compiler, .empty config.prologue config.epilogue, []⟩

/-- A step of a generator, whose work stays also when the step fails. -/
abbrev Step := ExceptT Error (StateM Generator)

/-- The names in the given address space. -/
def names (generator : Generator) (space : AddressSpace) : Names :=
  ⟨space, generator.config.naming⟩

/-- The generator with the code of a type that is done. -/
def finish (generator : Generator) (visit : Visit) (code : TypeCode) : Generator :=
  { generator with unit := generator.unit.add code, visited := visit :: generator.visited }

/-- The generator with the layout of a plain record. -/
def register (generator : Generator) (name : String) (layout : Layout) : Generator :=
  { generator with unit := generator.unit.register name layout }

/-- The terms of a record's size plan; a plan without terms is an error. -/
def planTerms (type : DataType) : SizePlan → Except Error (List (String × SizePlan))
  | .record _ terms => .ok terms
  | _ => .error (.unsupportedType type.name)

/-- The code for a record whose parts are done.  The layout of a plain record is registered. -/
def recordCode (space : AddressSpace) (type : DataType) : Step TypeCode := do
  let generator ← get
  let names := generator.names space
  if type.isPlain then
    let layout ← liftExcept (generator.compiler.plainLayout type)
    modify (·.register (names.typeName type) layout)
    return ofPlainRecord names generator.config.vectorAccessors type layout
  else
    let plan := SizePlan.ofType generator.compiler.packing type
    return ofPointerRecord names type (← liftExcept (planTerms type plan))

mutual

/-- Generates the code for a type and before it that for its parts, unless it is done. -/
def visit (space : AddressSpace) (type : DataType) : Step Unit := do
  let key : Visit := ⟨type.name, type.fingerprint, space⟩
  if (← get).visited.contains key then return
  match type with
  | .scalar _ => return
  | .enum enum => modify fun generator => generator.finish key (ofEnum (generator.names space) enum)
  | .record name fields =>
    visitFields space fields
    let code ← recordCode space (.record name fields)
    modify (·.finish key code)
  | .array name element =>
    liftExcept (DataType.checkElement name element)
    visit space element
    modify fun generator =>
      generator.finish key (ofArray (generator.names space) (.array name element) element)

/-- Generates the code for the types of fields. -/
def visitFields (space : AddressSpace) (fields : List (String × DataType)) : Step Unit := do
  match fields with
  | [] => return
  | (_, type) :: rest =>
    visit space type
    visitFields space rest

end

/-- Generates the code for a type and its parts.  Scalars need none and are refused. -/
def addType (space : AddressSpace) (type : DataType) : Step Unit :=
  match type with
  | .scalar kind => throw (.unsupportedType kind.name)
  | _ => visit space type

/-- Generates the code for the array of a linked list and for the head of the list. -/
def addList (space : AddressSpace) (type : DataType) : Step Unit :=
  match type.element? with
  | none => throw (.unsupportedType type.name)
  | some element =>
    if element.isListElement then do
      visit space ListHead.type
      addType space type
    else throw (.missingElementField type.name element.name DataType.nextField)

/-- The unit for types in one address space. -/
def generate (config : Config) (compiler : Compiler) (types : List DataType)
    (space : AddressSpace) : Except Error CodeUnit :=
  let (result, generator) := (types.forM (addType space)).run.run (start config compiler)
  result.map fun _ => generator.unit

end Generator

end DeviceBlob.Code
