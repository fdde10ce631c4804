import DeviceBlob.Code.TypeCode
import DeviceBlob.Layout.Basic
import DeviceBlob.Text.Blank

/-!
# Generated units

A unit collects the code of types.  The same text is kept once, however many types and address
spaces ask for it.  A unit also knows the layouts of its plain structs, so that a host program can
look them up by the names that kernels use.
-/

namespace DeviceBlob.Code

/-- The code collected for a header and a source file. -/
structure CodeUnit where
  /-- What the header starts with. -/
  prologue : String
  /-- What the header ends with. -/
  epilogue : String
  /-- The declared types. -/
  declarations : List Declaration
  /-- The functions with different prototypes. -/
  prototypes : List Function
  /-- The functions with different definitions. -/
  bodies : List Function
  /-- The layouts of plain structs by the names of the structs. -/
  layouts : List (String × Layout)
  deriving Inhabited

namespace CodeUnit

/-- The unit without code. -/
def empty (prologue epilogue : String) : CodeUnit := ⟨prologue, epilogue, [], [], [], []⟩

/-- The list with one entry more, unless an entry with the same text stands in it. -/
def addText {α : Type} (text : α → String) (list : List α) (entry : α) : List α :=
  if list.any fun other => text other == text entry then list else list ++ [entry]

/-- The unit with one function more. -/
def addFunction (unit : CodeUnit) (f : Function) : CodeUnit :=
  { unit with
    prototypes := addText Function.prototype unit.prototypes f
    bodies := addText Function.definition unit.bodies f }

/-- The unit with the code for one type more. -/
def add (unit : CodeUnit) (code : TypeCode) : CodeUnit :=
  code.functions.foldl addFunction
    { unit with declarations := addText Declaration.text unit.declarations code.declaration }

/-- The unit with the layout of a plain struct, in place of an earlier one of the same name. -/
def register (unit : CodeUnit) (name : String) (layout : Layout) : CodeUnit :=
  { unit with layouts := unit.layouts.filter (·.1 ≠ name) ++ [(name, layout)] }

/-- The layout of the plain struct with the given name. -/
def layout? (unit : CodeUnit) (name : String) : Option Layout := unit.layouts.lookup name

/-! ### Files -/

/-- The first line of a generated file. -/
def banner (part : String) : String := s!"/* {part} generated by blobtypes 0.3.0 */"

/-- The parts of a file, without the blank space around each of them and without the empty ones. -/
def file (parts : List String) : String :=
  "\n\n".intercalate ((parts.map Text.trim).filter (!·.isEmpty)) ++ "\n"

/-- The header: types, then prototypes. -/
def header (unit : CodeUnit) : String :=
  file [banner "header", unit.prologue,
    "\n\n".intercalate (unit.declarations.map Declaration.text),
    "\n".intercalate (unit.prototypes.map Function.prototype), unit.epilogue]

/-- The source: function definitions. -/
def source (unit : CodeUnit) : String :=
  file [banner "source", "\n\n".intercalate (unit.bodies.map Function.definition)]

/-! ### No text twice -/

/-- No text comes twice when an entry is added. -/
theorem nodup_addText {α : Type} {text : α → String} {list : List α} {entry : α}
    (nodup : (list.map text).Nodup) : ((addText text list entry).map text).Nodup := by
  unfold addText
  split
  · exact nodup
  · rename_i new
    rw [List.map_append, List.nodup_append]
    refine ⟨nodup, by simp, ?_⟩
    rintro a mem b mem' rfl
    simp only [List.map_cons, List.map_nil, List.mem_singleton] at mem'
    obtain ⟨other, mem, same⟩ := List.mem_map.1 mem
    exact new (List.any_eq_true.2 ⟨other, mem, by simp [same, mem']⟩)

end CodeUnit

end DeviceBlob.Code
