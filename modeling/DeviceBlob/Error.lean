import DeviceBlob.Scalar

/-!
# Errors

What can be wrong with a schema, a set of parameters, a value tree or a buffer.  Each error names
its cause; `Error.message` is the only place that puts one into words.
-/

namespace DeviceBlob

/-- A fault in a schema, a parameter list or another piece of configuration. -/
inductive SchemaFault where
  /-- An enum declares ordinal 0, the label `undefined` or an empty label. -/
  | reservedLabel (enum : String)
  | duplicateLabel (enum label : String)
  | duplicateOrdinal (enum : String) (ordinal : Int32)
  | ordinalNotInteger (enum text : String)
  | unnamedRecord
  | recordWithoutFields (record : String)
  /-- A field of a record has no name or the name of an earlier one. -/
  | badFieldName (record field : String)
  | sharedParameter (record parameter : String)
  | typeAlreadyDefined (type : String)
  | typeNotDeclared (type : String)
  | vectorOfNonScalar (record field : String)
  | vectorLength (record field : String) (components : Nat)
  /-- Two fields of a type have one name once nested records are opened. -/
  | flattenedTwice (type field : String)
  | malformedParameter (text : String)
  | parameterNotInteger (name : String)
  | nullValue
  | unknownSpace (text : String)
  | unknownNaming (text : String)
  | unreadableFile (path reason : String)
  deriving DecidableEq, Repr

/-- How a buffer and the layout it is opened with disagree. -/
inductive LayoutFault where
  /-- The buffer ends before the layout does. -/
  | tooShort (needed available : Nat)
  /-- The buffer ends before a nested part of the layout does. -/
  | partTooShort (needed offset available : Nat)
  | headerCut (offset : Nat)
  | capacityDiffers (offset : Nat) (stored : Int) (expected : Nat)
  | notAnArray
  | danglingLink (slot : Nat)
  deriving DecidableEq, Repr

/-- The ways in which an operation on types, layouts and blobs can fail. -/
inductive Error where
  | missingParameter (type parameter : String)
  | invalidParameter (parameter : String) (value : Int64) (max : Nat)
  | unsupportedType (type : String)
  | layoutMismatch (type : String) (fault : LayoutFault)
  | uninitializedField (type field : String)
  | unknownField (type field : String)
  | invalidCapacity (offset : Nat) (value : Int) (max : Nat)
  | outOfOrderAppend (expected found : Int)
  | cycleDetected (limit : Nat)
  | unsupportedNesting (type context : String)
  | missingElementField (array element field : String)
  | unknownOrdinal (enum : String) (ordinal : Int)
  | unknownLabel (enum label : String)
  | typeMismatch (field expected found : String)
  | capacityExceeded (array : String) (capacity : Nat)
  | slotOutOfRange (slot capacity : Nat)
  | invalidSchema (fault : SchemaFault)
  /-- A text is not the JSON that is expected in its place. -/
  | malformedJson
  deriving DecidableEq, Repr

namespace SchemaFault

/-- The fault in words. -/
def message : SchemaFault → String
  | reservedLabel enum =>
    s!"enum '{enum}': ordinal 0 and the 'undefined' label are reserved"
  | duplicateLabel enum label => s!"enum '{enum}': duplicate label '{label}'"
  | duplicateOrdinal enum ordinal => s!"enum '{enum}': duplicate ordinal {ordinal.toInt}"
  | ordinalNotInteger enum text => s!"enum '{enum}': bad ordinal '{text}'"
  | unnamedRecord => "record without a name"
  | recordWithoutFields record => s!"record '{record}' has no fields"
  | badFieldName record field =>
    s!"record '{record}' has an empty or duplicate field name '{field}'"
  | sharedParameter record parameter =>
    s!"record '{record}' has two arrays sharing the parameter '{parameter}'"
  | typeAlreadyDefined type => s!"type '{type}' is already defined"
  | typeNotDeclared type => s!"type '{type}' is referenced before it is declared"
  | vectorOfNonScalar record field => s!"'{record}.{field}': vector components must be scalar"
  | vectorLength record field components =>
    s!"'{record}.{field}': {components} vector components (2..=4)"
  | flattenedTwice type field => s!"'{type}' flattens two fields to '{field}'"
  | malformedParameter text => s!"expected name=value, got '{text}'"
  | parameterNotInteger name => s!"parameter '{name}' is not an integer"
  | nullValue => "null is not a valid field value"
  | unknownSpace text => s!"unknown address space '{text}'"
  | unknownNaming text => s!"unknown naming mode '{text}'"
  | unreadableFile path reason => s!"cannot read {path}: {reason}"

end SchemaFault

namespace LayoutFault

/-- The fault in words. -/
def message : LayoutFault → String
  | tooShort needed available => s!"needs {needed} bytes, buffer has {available}"
  | partTooShort needed offset available =>
    s!"needs {needed} bytes at offset {offset}, buffer has {available}"
  | headerCut offset => s!"buffer ends inside the array header at offset {offset}"
  | capacityDiffers offset stored expected =>
    s!"capacity at offset {offset} is {stored}, layout expects {expected}"
  | notAnArray => "not an array layout"
  | danglingLink slot => s!"link to empty or out of range slot {slot}"

end LayoutFault

namespace Error

/-- The error in words. -/
def message : Error → String
  | missingParameter type parameter => s!"type '{type}' requires parameter '{parameter}'"
  | invalidParameter parameter value max =>
    s!"parameter '{parameter}' = {value.toInt} is out of range (1..={max})"
  | unsupportedType type => s!"unsupported type '{type}'"
  | layoutMismatch type fault => s!"buffer does not match layout of '{type}': " ++ fault.message
  | uninitializedField type field => s!"field '{field}' of '{type}' was not initialized"
  | unknownField type field => s!"'{type}' has no field '{field}'"
  | invalidCapacity offset value max =>
    s!"invalid capacity {value} at offset {offset} (1..={max})"
  | outOfOrderAppend expected found =>
    s!"out of order append: item index {found}, expected {expected}"
  | cycleDetected limit => s!"linked list walk exceeded {limit} links"
  | unsupportedNesting type context => s!"'{type}' is not plain and cannot be used in {context}"
  | missingElementField array element field =>
    s!"element type '{element}' of array '{array}' must start with an int32 '{field}' field"
  | unknownOrdinal enum ordinal => s!"enum '{enum}' has no ordinal {ordinal}"
  | unknownLabel enum label => s!"enum '{enum}' has no label '{label}'"
  | typeMismatch field expected found => s!"field '{field}' expects {expected}, got {found}"
  | capacityExceeded array capacity => s!"array '{array}' is full (capacity {capacity})"
  | slotOutOfRange slot capacity => s!"slot {slot} is out of range (capacity {capacity})"
  | invalidSchema fault => "invalid schema: " ++ fault.message
  | malformedJson => "JSON error: malformed text"

end Error

end DeviceBlob
