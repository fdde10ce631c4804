import DeviceBlob.CommandLine.Command

/-!
# Help texts

The help text of the program lists its commands, and that of a command the switches that it takes.
The request for help has a help text of its own.
-/

namespace DeviceBlob.CommandLine

/-- The name of the program. -/
def programName : String := "blobtypes-gen"

/-- The name and the version of the program. -/
def versionText : String := programName ++ " 0.3.0\n"

/-- What the program is for. -/
def programSummary : String := "Blob layout compiler and OpenCL C generator"

/-- A switch with the placeholder of its value. -/
def Switch.usage (switch : Switch) : String :=
  "--" ++ switch.long ++ (if switch.takesValue then " <" ++ switch.placeholder ++ ">" else "")

/-- A switch as the list of switches shows it. -/
def Switch.column (switch : Switch) : String :=
  match switch.letter? with
  | some letter => String.ofList ['-', letter, ',', ' '] ++ switch.usage
  | none => "    " ++ switch.usage

/-- What a switch is for, with the value that it has when it is not given. -/
def Switch.remark (switch : Switch) : String :=
  match switch.default? with
  | some value => switch.summary ++ " [default: " ++ value ++ "]"
  | none => switch.summary

/-- Two columns of text. -/
def columns (rows : List (String × String)) : String :=
  let width := (rows.map (·.1.length)).foldl max 0
  String.join (rows.map fun (left, right) =>
    let padding := String.ofList (List.replicate (width - left.length) ' ')
    "  " ++ left ++ padding ++ "  " ++ right ++ "\n")

/-- The list of switches. -/
def switchesText (switches : List Switch) : String :=
  "Options:\n" ++ columns (switches.map fun switch => (switch.column, switch.remark))

/-- What a request for help does. -/
def helpSummary : String := "Print this message or the help of the given subcommand(s)"

/-- The help text of the program. -/
def programHelp : String :=
  let commands := CommandName.all.map fun name => (name.word, name.summary)
  programSummary ++ "\n\nUsage: " ++ programName ++ " [OPTIONS] <COMMAND>\n\nCommands:\n" ++
    columns (commands ++ [(HelpTopic.helpWord, helpSummary)]) ++ "\n" ++
    switchesText programSwitches

/-- The help text of a command. -/
def CommandName.help (name : CommandName) : String :=
  let required := (name.switches.filter (·.isRequired)).map fun switch => " " ++ switch.usage
  name.summary ++ "\n\nUsage: " ++ programName ++ " " ++ name.word ++ " [OPTIONS]" ++
    String.join required ++ "\n\n" ++ switchesText name.switches

/-- The help text of the request for help. -/
def requestHelp : String :=
  helpSummary ++ "\n\nUsage: " ++ programName ++ " " ++ HelpTopic.helpWord ++
    " [COMMAND]...\n\nArguments:\n" ++
    columns [("[COMMAND]...", "Print help for the subcommand(s)")]

/-- The help text on a topic. -/
def HelpTopic.text : HelpTopic → String
  | program => programHelp
  | command name => name.help
  | help => requestHelp

end DeviceBlob.CommandLine
