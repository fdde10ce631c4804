/-!
# Declarations in device code

A declaration gives a name to an enum or a struct.  Enums come with a constant for each label and
plain structs with a constant for their size.
-/

namespace DeviceBlob.Code

/-- A label of a declared enum. -/
structure EnumConstant where
  /-- The constant for the ordinal. -/
  constant : String
  /-- The ordinal. -/
  ordinal : Int
  /-- The member of the enum. -/
  member : String
  deriving DecidableEq, Repr

/-- A member of a declared struct. -/
structure Member where
  /-- The type of the member, pointer stars included. -/
  type : String
  /-- The name of the member. -/
  name : String
  /-- The enum that the member's value belongs to. -/
  enum? : Option String := none
  deriving DecidableEq, Repr

/-- What a struct is for. -/
inductive StructForm where
  /-- The bytes of a plain record, with a constant for its size. -/
  | plain (sizeMacro : String) (size : Nat)
  /-- Pointers to the parts of a record. -/
  | complex
  /-- Pointers to the parts of an array. -/
  | array
  deriving DecidableEq, Repr

/-- A generated type. -/
inductive Declaration where
  /-- Labels with their constants. -/
  | enum (name : String) (constants : List EnumConstant)
  /-- A struct with members. -/
  | struct (form : StructForm) (name : String) (members : List Member)
  deriving DecidableEq, Repr

/-- The member on a line of its own. -/
def Member.text (member : Member) : String :=
  let remark := match member.enum? with
    | some enum => s!" /* {enum} */"
    | none => ""
  s!"\t{member.type} {member.name};{remark}\n"

namespace StructForm

/-- The form in one word. -/
def word : StructForm → String
  | plain _ _ => "plain"
  | complex => "complex"
  | array => "array"

/-- What keeps the members of a struct together in memory. -/
def packing : StructForm → String
  | complex => ""
  | _ => "__attribute__((__packed__)) "

/-- The constants defined behind a struct. -/
def macros : StructForm → List (String × Int)
  | plain sizeMacro size => [(sizeMacro, size)]
  | _ => []

end StructForm

/-- The definition of a constant. -/
def defineText (constant : String × Int) : String := s!"#define {constant.1} {constant.2}"

namespace Declaration

/-- The name that is declared. -/
def name : Declaration → String
  | enum name _ => name
  | struct _ name _ => name

/-- The constants that are defined along with the type. -/
def macros : Declaration → List (String × Int)
  | enum _ constants => constants.map fun entry => (entry.constant, entry.ordinal)
  | struct form _ _ => form.macros

/-- The declaration as code. -/
def text : Declaration → String
  | enum name constants =>
    let defines := constants.map fun entry => defineText (entry.constant, entry.ordinal) ++ "\n"
    let members := constants.map fun entry => s!"\t{entry.member} = {entry.constant}"
    s!"/* enum type {name} */\n\n" ++ String.join defines ++
      s!"\ntypedef enum _{name}\n\x7b\n" ++ ",\n".intercalate members ++ s!"\n\x7d {name};"
  | struct form name members =>
    s!"/* {form.word} type {name} */\n\n" ++
      s!"typedef struct {form.packing}_{name}\n\x7b\n" ++
      String.join (members.map Member.text) ++ s!"\x7d {name};" ++
      String.join (form.macros.map fun constant => "\n\n" ++ defineText constant)

end Declaration

end DeviceBlob.Code
