import DeviceBlob.Layout.Words

/-!
# Layouts as text

A layout is shown as a table of its accessors, one line each with offset, width, kind and name.  The
columns are as wide as most entries need; longer ones are not cut.
-/

namespace DeviceBlob.Layout

/-- The text with blanks before it, up to the given number of characters. -/
def alignRight (width : Nat) (s : String) : String :=
  String.ofList (List.replicate (width - s.length) ' ') ++ s

/-- The text with blanks behind it, up to the given number of characters. -/
def alignLeft (width : Nat) (s : String) : String :=
  s ++ String.ofList (List.replicate (width - s.length) ' ')

/-- What the bytes hold, as a column of the table shows it. -/
def kindText : Layout → String
  | scalar kind => kind.name
  | enum type => "enum " ++ type.name
  | padding kind => "padding " ++ kind.name
  | record name _ => "record " ++ name
  | array name _ _ => "array " ++ name

/-- The line of the table for an accessor. -/
def accessorLine (place : WordField) : String :=
  "  " ++ alignRight 6 (toString place.offset.toNat) ++ "  " ++
    alignRight 6 (toString place.content.wordSize.toNat) ++ "  " ++
    alignLeft 20 place.content.kindText ++ " " ++ place.name ++ "\n"

/-- The line about the slots of an array. -/
def slotLine : Layout → String
  | array _ capacity element =>
    s!"  {capacity} x {element.typeName} ({element.wordSize.toNat} bytes each) " ++
      s!"from offset {headerSize}\n"
  | _ => ""

/-- The table of a layout. -/
def text (packing : Packing) (layout : Layout) : String :=
  s!"{layout.typeName} ({layout.wordSize.toNat} bytes, {packing.name})\n" ++
    String.join (layout.wordAccessors.map accessorLine) ++ layout.slotLine

end DeviceBlob.Layout
