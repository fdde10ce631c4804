import DeviceBlob.Code.Space
import DeviceBlob.CommandLine.Switch

/-!
# Commands

The four commands of the program and the switches that they take.  `Command.ofArguments` reads a
whole command line.  A level for log lines is accepted in front of a command and behind it; the
program writes no log lines at any level.
-/

namespace DeviceBlob.CommandLine

/-- Which schema a command works with. -/
structure SchemaChoice where
  /-- The file with the schema document. -/
  path : String
  /-- Layouts are made without padding. -/
  isUnaligned : Bool
  deriving DecidableEq, Repr

/-- A command of the program. -/
inductive Command where
  /-- Writes device code for the types requested in each address space. -/
  | generate (schema : SchemaChoice) (roots : List (AddressSpace × List String))
      (header source : String) (prologue? epilogue? : Option String) (naming : String)
  /-- Prints the layout of a type. -/
  | layout (schema : SchemaChoice) (type : String) (params : List String)
  /-- Writes the blob with the values of a tree. -/
  | encode (schema : SchemaChoice) (type input output : String) (params : List String)
  /-- Prints the values of a blob. -/
  | decode (schema : SchemaChoice) (type input : String) (nested : Bool)
  deriving DecidableEq, Repr

/-- The name of a command. -/
inductive CommandName where
  | generate | layout | encode | decode
  deriving DecidableEq, Repr

namespace CommandName

/-- The names of the commands. -/
def all : List CommandName := [generate, layout, encode, decode]

/-- The word for a command. -/
def word : CommandName → String
  | generate => "generate"
  | layout => "layout"
  | encode => "encode"
  | decode => "decode"

/-- What a command does. -/
def summary : CommandName → String
  | generate => "Generate an OpenCL C header and source"
  | layout => "Print the field table of a type"
  | encode => "Encode a JSON value tree into blob bytes"
  | decode => "Decode blob bytes into a JSON value tree"

end CommandName

/-- What a help text is about. -/
inductive HelpTopic where
  /-- The program with its commands. -/
  | program
  /-- A command. -/
  | command (name : CommandName)
  /-- The request for help itself. -/
  | help
  deriving DecidableEq, Repr

namespace HelpTopic

/-- The word that asks for a help text. -/
def helpWord : String := "help"

/-- The topic that a word stands for. -/
def ofWord? (word : String) : Option HelpTopic :=
  if word = helpWord then some help
  else (CommandName.all.find? (·.word = word)).map command

end HelpTopic

/-! ### Switches -/

/-- Asks for the help text. -/
def helpSwitch : Switch :=
  { long := HelpTopic.helpWord, letter? := some 'h', kind := .help, summary := "Print help" }

/-- Asks for the version. -/
def versionSwitch : Switch :=
  { long := "version", letter? := some 'V', kind := .version, summary := "Print version" }

/-- The level for log lines. -/
def logLevelSwitch : Switch :=
  { long := "log-level", kind := .one, placeholder := "LOG_LEVEL", default? := some "info"
    summary := "Log level (trace, debug, info, warn, error)" }

/-- The switches that select schema and packing. -/
def schemaSwitches : List Switch :=
  [{ long := "schema", letter? := some 's', kind := .one, placeholder := "SCHEMA", isPath := true
     isRequired := true, summary := "JSON schema file" },
    { long := "unaligned", kind := .flag
      summary := "Pack 3-component vectors without padding" }]

/-- The switch that names a type. -/
def typeSwitch : Switch :=
  { long := "type", letter? := some 't', kind := .one, placeholder := "TYPE_NAME"
    isRequired := true, summary := "Type name" }

/-- The switch that sets parameters. -/
def paramSwitch : Switch :=
  { long := "param", letter? := some 'p', kind := .many, placeholder := "PARAM"
    summary := "Capacity parameter (format: \"name=value\", can repeat)" }

/-- The switch that requests types in an address space. -/
def spaceSwitch (space : AddressSpace) : Switch :=
  { long := space.word, kind := .many, placeholder := space.word.toUpper
    summary := s!"Types to emit in {space.qualifier} (can repeat)" }

/-- The switch that names a file. -/
def pathSwitch (long : String) (letter? : Option Char) (isRequired : Bool) (summary : String) :
    Switch :=
  { long, letter?, kind := .one, placeholder := long.toUpper, isPath := true, isRequired
    summary }

/-- The switches in front of a command. -/
def programSwitches : List Switch := [logLevelSwitch, helpSwitch, versionSwitch]

/-- The switches of a command. -/
def CommandName.switches (name : CommandName) : List Switch :=
  logLevelSwitch :: schemaSwitches ++ own ++ [helpSwitch]
where
  /-- The switches of one command alone. -/
  own : List Switch :=
    match name with
    | .generate =>
      AddressSpace.all.map spaceSwitch ++
        [pathSwitch "header" none true "Header output path",
          pathSwitch "source" none true "Source output path",
          pathSwitch "prologue" none false "File whose text opens the header",
          pathSwitch "epilogue" none false "File whose text closes the header",
          { long := "naming", kind := .one, placeholder := "NAMING", default? := some "short"
            summary := "Identifier style (short, full)" }]
    | .layout => [typeSwitch, paramSwitch]
    | .encode =>
      [typeSwitch, pathSwitch "input" (some 'i') true "JSON value tree",
        pathSwitch "output" (some 'o') true "Output blob file", paramSwitch]
    | .decode =>
      [typeSwitch, pathSwitch "input" (some 'i') true "Input blob file",
        { long := "nested", kind := .flag
          summary := "Re-nest record fields instead of printing flat names" }]

/-! ### From words to commands -/

/-- The value of a switch that is given at most once. -/
def Given.value? (given : Given) (long : String) : Option String := (given.values long).head?

/-- The value of a required switch. -/
def Given.value (given : Given) (long : String) : String := (given.value? long).getD ""

namespace Command

/-- The command with the given name and switches. -/
def ofGiven (name : CommandName) (given : Given) : Command :=
  let schema : SchemaChoice := ⟨given.value "schema", given.has "unaligned"⟩
  match name with
  | .generate =>
    .generate schema (AddressSpace.all.map fun space => (space, given.values space.word))
      (given.value "header") (given.value "source") (given.value? "prologue")
      (given.value? "epilogue") ((given.value? "naming").getD "short")
  | .layout => .layout schema (given.value "type") (given.values "param")
  | .encode =>
    .encode schema (given.value "type") (given.value "input") (given.value "output")
      (given.values "param")
  | .decode => .decode schema (given.value "type") (given.value "input") (given.has "nested")

/-- A request that is answered without running a command, and what its help text is about. -/
abbrev Answer := HelpTopic × Stop

/-- Reads the words behind the name of a command. -/
def ofWords (name : CommandName) (words : List String) : Except Answer Command :=
  let result : Except Stop Command := do
    let reading ← readSwitches name.switches [] words
    match reading.rest with
    | [] =>
      reading.checkLate
      checkRequired name.switches reading.given
      return ofGiven name reading.given
    | word :: _ => .error (.misuse (.unexpected word))
  result.mapError (.command name, ·)

/-- Answers a request for help. -/
def helpAnswer : List String → Answer
  | [] => (.program, .help)
  | [word] =>
    match HelpTopic.ofWord? word with
    | some topic => (topic, .help)
    | none => (.program, .misuse (.unknownCommand word))
  | _ :: word :: _ => (.help, .misuse (.unexpected word))

/-- Reads a command line.  Help on a command is given even if the value in front of the command is
wrong. -/
def ofArguments (arguments : List String) : Except Answer Command := do
  let reading ← (readSwitches programSwitches [] arguments).mapError (.program, ·)
  match reading.rest with
  | [] => .error (.program, .misuse .missingCommand)
  | word :: words =>
    match HelpTopic.ofWord? word with
    | some (.command name) =>
      let command ← ofWords name words
      reading.checkLate.mapError (.program, ·)
      return command
    | some _ => .error (helpAnswer words)
    | none => .error (.program, .misuse (.unknownCommand word))

end Command

end DeviceBlob.CommandLine
