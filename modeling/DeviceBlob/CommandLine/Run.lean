import DeviceBlob.Blob.Cached
import DeviceBlob.Code.Generator
import DeviceBlob.CommandLine.Failure
import DeviceBlob.CommandLine.File
import DeviceBlob.CommandLine.Help
import DeviceBlob.Json.Printer
import DeviceBlob.Json.Reader
import DeviceBlob.Layout.Text
import DeviceBlob.Schema.Resolve

/-!
# Running commands

A command reads its files, does its work and writes or prints what comes out of it.  The first thing
that fails ends it; files written before that stay.
-/

namespace DeviceBlob.CommandLine

/-- What a run of the program leaves besides files. -/
structure Report where
  /-- The exit status. -/
  status : UInt32
  /-- What is printed. -/
  output : String
  /-- What is printed about failures. -/
  complaint : String
  deriving DecidableEq, Repr

/-- Work that can fail. -/
abbrev Task (m : Type → Type) := ExceptT Failure m

section

variable {m : Type → Type} [Monad m]

/-- Work that failed, as part of wider work. -/
def within {α : Type} (message : String) (result : Except Failure α) : Task m α :=
  liftExcept (result.mapError (·.within message))

/-- A step on values that can fail. -/
def attempt {α : Type} (result : Except Error α) : Task m α :=
  liftExcept (result.mapError Failure.ofError)

/-- A step that asks for layouts.  A command takes one such step, on a cache of its own. -/
def attemptWithCache {α : Type} (steps : LayoutCache.Attempt α) : Task m α :=
  attempt (LayoutCache.runOn steps .empty).1

/-! ### Files -/

/-- The bytes of a file. -/
def readBytes (files : FileAccess m) (path : String) : Task m Bytes := do
  let result ← files.read path
  within ("failed to read " ++ path) (result.mapError fun fault => ⟨fault.message, []⟩)

/-- The text of a file. -/
def readText (files : FileAccess m) (path : String) : Task m String := do
  let result ← files.read path
  within ("failed to read " ++ path)
    ((result.bind textOfBytes).mapError fun fault => ⟨fault.message, []⟩)

/-- The text of a file that need not be given. -/
def readOptional (files : FileAccess m) : Option String → Task m String
  | some path => readText files path
  | none => return ""

/-- Writes a file. -/
def writeBytes (files : FileAccess m) (path : String) (bytes : Bytes) : Task m Unit := do
  let result ← files.write path bytes
  within ("failed to write " ++ path) (result.mapError fun fault => ⟨fault.message, []⟩)

/-- The types that the text of a schema declares. -/
def registryOfText (path : String) (text : Except FileFault String) : Except Error Registry := do
  let text ← text.mapError fun fault => .invalidSchema (.unreadableFile path fault.message)
  (← Schema.ofText text).toRegistry

/-- The types of the chosen schema. -/
def loadTypes (files : FileAccess m) (choice : SchemaChoice) : Task m Registry := do
  let bytes ← files.read choice.path
  let registry := registryOfText choice.path (bytes.bind textOfBytes)
  within ("failed to load schema " ++ choice.path) (registry.mapError Failure.ofError)

/-- The compiler for the chosen packing. -/
def SchemaChoice.compiler (choice : SchemaChoice) : Compiler :=
  { packing := if choice.isUnaligned then .unaligned else .aligned }

/-- The parameters in the given entries, each of which may set several of them. -/
def parseParams (entries : List String) : Except Failure Params :=
  entries.foldlM (fun params entry => do
    let parsed ← (Params.ofText entry).mapError fun error =>
      (Failure.ofError error).within s!"invalid parameter '{entry}'"
    return params.union parsed) ∅

/-! ### Commands -/

/-- Generates the code for a type by its name. -/
def generateType (registry : Registry) (generator : Code.Generator) (space : AddressSpace)
    (name : String) : Except Failure Code.Generator := do
  let type ← (registry.resolve name).mapError Failure.ofError
  let (result, generator) := (Code.Generator.addType space type).run.run generator
  match result with
  | .ok _ => return generator
  | .error error =>
    throw ((Failure.ofError error).within s!"failed to generate {name} for {space.qualifier}")

/-- Generates the code for the requested types. -/
def generateUnit (registry : Registry) (compiler : Compiler) (config : Code.Config)
    (roots : List (AddressSpace × List String)) : Except Failure Code.CodeUnit := do
  if roots.all (·.2.isEmpty) then
    throw ⟨"no types requested (use --private, --local, --constant or --global)", []⟩
  let requests := roots.flatMap fun (space, names) => names.map (space, ·)
  let generator ← requests.foldlM
    (fun generator (space, name) => generateType registry generator space name)
    (Code.Generator.start config compiler)
  return generator.unit

/-- Does the work of a command and gives what it prints. -/
def Command.perform (files : FileAccess m) : Command → Task m String
  | .generate schema roots header source prologue? epilogue? naming => do
    let naming ← attempt (NamingMode.ofText naming)
    let prologue ← readOptional files prologue?
    let epilogue ← readOptional files epilogue?
    let registry ← loadTypes files schema
    let unit ← liftExcept (generateUnit registry schema.compiler
      { naming, prologue, epilogue } roots)
    writeBytes files header (bytesOfText unit.header)
    writeBytes files source (bytesOfText unit.source)
    return ""
  | .layout schema type params => do
    let registry ← loadTypes files schema
    let type ← attempt (registry.resolve type)
    let params ← liftExcept (parseParams params)
    let layout ← attemptWithCache (schema.compiler.cachedLayout params type)
    return layout.text schema.compiler.packing
  | .encode schema type input output params => do
    let registry ← loadTypes files schema
    let type ← attempt (registry.resolve type)
    let text ← readText files input
    let json ← match Json.parse? text with
      | some json => pure json
      | none => throw ⟨"failed to parse value tree", [Failure.malformedText]⟩
    let tree ← attempt (Value.ofJson json)
    let params ← liftExcept (parseParams params)
    let blob ← attemptWithCache (Blob.cachedOfTree schema.compiler type tree params)
    writeBytes files output blob.bytes
    return ""
  | .decode schema type input nested => do
    let registry ← loadTypes files schema
    let type ← attempt (registry.resolve type)
    let bytes ← readBytes files input
    let blob ← attemptWithCache (Blob.cachedOpenBytes schema.compiler type bytes none)
    let tree := if nested then blob.nestedTree else blob.flatTree
    return tree.toJson.pretty ++ "\n"

/-- Runs a command. -/
def Command.run (files : FileAccess m) (command : Command) : m Report := do
  match ← (command.perform files).run with
  | .ok output => return ⟨0, output, ""⟩
  | .error failure => return ⟨1, "", failure.text⟩

/-- Answers a request that runs no command. -/
def Command.Answer.report : Command.Answer → Report
  | (topic, .help) => ⟨0, topic.text, ""⟩
  | (_, .version) => ⟨0, versionText, ""⟩
  | (_, .misuse mistake) =>
    ⟨2, "", "error: " ++ mistake.message ++ "\n\nFor more information, try '--help'.\n"⟩

/-- Runs the program with the given arguments. -/
def runProgram (files : FileAccess m) (arguments : List String) : m Report :=
  match Command.ofArguments arguments with
  | .ok command => command.run files
  | .error answer => return answer.report

end

end DeviceBlob.CommandLine
