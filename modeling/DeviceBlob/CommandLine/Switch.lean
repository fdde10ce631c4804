import DeviceBlob.Text.Pieces

/-!
# Reading switches

The words of a command line are switches with their values and, between or behind them, plain
words.  A switch is written with its long name or, if it has one, with its letter.  The value is the
next word, or it follows `=` or the letter directly.  `readSwitches` reads switches up to the first
plain word.
-/

namespace DeviceBlob.CommandLine

/-- What a switch takes and how often it may be given. -/
inductive SwitchKind where
  /-- No value; given at most once. -/
  | flag
  /-- One value; given at most once. -/
  | one
  /-- One value; given as often as wanted. -/
  | many
  /-- Asks for the help text. -/
  | help
  /-- Asks for the version. -/
  | version
  deriving DecidableEq, Repr

/-- A switch that a command knows. -/
structure Switch where
  /-- The name behind two dashes. -/
  long : String
  /-- The letter behind one dash. -/
  letter? : Option Char := none
  /-- What the switch takes. -/
  kind : SwitchKind
  /-- What stands for the value in the help text. -/
  placeholder : String := ""
  /-- The value names a file, so it must not be empty. -/
  isPath : Bool := false
  /-- The switch has to be given. -/
  isRequired : Bool := false
  /-- The value of a switch that is not given. -/
  default? : Option String := none
  /-- What the switch is for. -/
  summary : String
  deriving DecidableEq, Repr

/-- The switch is followed by a value. -/
def Switch.takesValue (switch : Switch) : Bool := switch.kind == .one || switch.kind == .many

/-- What is wrong with a command line. -/
inductive Misuse where
  | unexpected (word : String)
  | unknownCommand (word : String)
  | missingCommand
  | missingValue (switch : String)
  | needlessValue (switch : String)
  | emptyValue (switch : String)
  | givenTwice (switch : String)
  | missingSwitch (switch : String)
  deriving DecidableEq, Repr

/-- The mistake in words. -/
def Misuse.message : Misuse → String
  | unexpected word => s!"unexpected argument '{word}'"
  | unknownCommand word => s!"there is no command '{word}'"
  | missingCommand => "a command is required"
  | missingValue switch => s!"'--{switch}' requires a value"
  | needlessValue switch => s!"'--{switch}' takes no value"
  | emptyValue switch => s!"the value of '--{switch}' is empty"
  | givenTwice switch => s!"'--{switch}' is given more than once"
  | missingSwitch switch => s!"'--{switch}' is required"

/-- Why a command line is not carried out. -/
inductive Stop where
  /-- The help text is wanted. -/
  | help
  /-- The version is wanted. -/
  | version
  /-- The command line is wrong. -/
  | misuse (mistake : Misuse)
  deriving DecidableEq, Repr

/-! ### What was given -/

/-- The switches that were given, by their long names, with their values. -/
abbrev Given := List (String × String)

namespace Given

/-- The values given to a switch, in order. -/
def values (given : Given) (long : String) : List String :=
  (given.filter (·.1 = long)).map (·.2)

/-- The switch was given. -/
def has (given : Given) (long : String) : Bool := given.any (·.1 = long)

/-- One more switch with its value. -/
def add (given : Given) (switch : Switch) (value : String) : Except Stop Given :=
  if switch.kind = .help then .error .help
  else if switch.kind = .version then .error .version
  else if switch.isPath && value.isEmpty then .error (.misuse (.emptyValue switch.long))
  else if switch.kind ≠ .many && given.has switch.long then
    .error (.misuse (.givenTwice switch.long))
  else .ok (given ++ [(switch.long, value)])

/-- One more switch without a value. -/
def mark (given : Given) (switch : Switch) : Except Stop Given := given.add switch ""

end Given

/-! ### Words -/

/-- What a word of a command line is. -/
inductive Word where
  /-- Not a switch. -/
  | plain
  /-- Two dashes, behind which there are no more switches. -/
  | endOfSwitches
  /-- A switch by its long name, perhaps with a value. -/
  | long (name : String) (value? : Option String)
  /-- Switches by their letters, the last one perhaps with a value. -/
  | letters (cs : List Char)
  deriving DecidableEq, Repr

/-- Says what a word is.  One dash alone is a plain word. -/
def Word.ofText (text : String) : Word :=
  match text.toList with
  | ['-'] => .plain
  | ['-', '-'] => .endOfSwitches
  | '-' :: '-' :: cs =>
    match Text.cutFirst '=' cs with
    | some (name, value) => .long (String.ofList name) (some (String.ofList value))
    | none => .long (String.ofList cs) none
  | '-' :: cs => .letters cs
  | _ => .plain

/-- What a word of switches gives, and the switch whose value is the next word. -/
abbrev WordResult := Except Stop (Given × Option Switch)

/-- Reads switches written as letters. -/
def readLetters (switches : List Switch) (given : Given) : List Char → WordResult
  | [] => .ok (given, none)
  | letter :: rest =>
    match switches.find? (·.letter? = some letter) with
    | none => .error (.misuse (.unexpected (String.ofList ['-', letter])))
    | some switch =>
      if switch.takesValue then
        match rest with
        | [] => .ok (given, some switch)
        | '=' :: value => (given.add switch (String.ofList value)).map (·, none)
        | value => (given.add switch (String.ofList value)).map (·, none)
      else do readLetters switches (← given.mark switch) rest

/-- Reads a switch written with its long name. -/
def readLong (switches : List Switch) (given : Given) (name : String) (value? : Option String) :
    WordResult :=
  match switches.find? (·.long = name) with
  | none => .error (.misuse (.unexpected ("--" ++ name)))
  | some switch =>
    match switch.takesValue, value? with
    | true, some value => (given.add switch value).map (·, none)
    | true, none => .ok (given, some switch)
    | false, some _ => .error (.misuse (.needlessValue switch.long))
    | false, none => (given.mark switch).map (·, none)

/-- What reading switches gives. -/
structure SwitchReading where
  /-- The switches that were given. -/
  given : Given
  /-- What is wrong with the value of the last switch, if that is a word of its own. -/
  late? : Option Stop
  /-- The words from the first plain one on. -/
  rest : List String
  deriving DecidableEq, Repr

/-- Reports what is wrong with the value of the last switch. -/
def SwitchReading.checkLate (reading : SwitchReading) : Except Stop Unit :=
  match reading.late? with
  | some stop => .error stop
  | none => .ok ()

/-- Reads switches up to the first plain word.  A value that is a word of its own is looked at when
the next switch comes, so a mistake in the last one is left to the caller. -/
def readSwitches (switches : List Switch) (given : Given) :
    List String → Except Stop SwitchReading
  | [] => .ok ⟨given, none, []⟩
  | word :: rest =>
    let result : WordResult := match Word.ofText word with
      | .long name value? => readLong switches given name value?
      | .letters cs => readLetters switches given cs
      | _ => .ok (given, none)
    match Word.ofText word, result, rest with
    | .plain, _, _ => .ok ⟨given, none, word :: rest⟩
    | .endOfSwitches, _, [] => .ok ⟨given, none, []⟩
    | .endOfSwitches, _, extra :: _ => .error (.misuse (.unexpected extra))
    | _, .error stop, _ => .error stop
    | _, .ok (given, none), rest => readSwitches switches given rest
    | _, .ok (_, some switch), [] => .error (.misuse (.missingValue switch.long))
    | _, .ok (given, some switch), value :: rest =>
      if Word.ofText value = .plain then
        match given.add switch value, rest.head?.map Word.ofText with
        | .ok given, _ => readSwitches switches given rest
        | .error stop, some .plain => .ok ⟨given, some stop, rest⟩
        | .error stop, _ => .error stop
      else .error (.misuse (.missingValue switch.long))

/-- Checks that all required switches were given. -/
def checkRequired (switches : List Switch) (given : Given) : Except Stop Unit :=
  match switches.find? fun switch => switch.isRequired && !given.has switch.long with
  | some switch => .error (.misuse (.missingSwitch switch.long))
  | none => .ok ()

end DeviceBlob.CommandLine
