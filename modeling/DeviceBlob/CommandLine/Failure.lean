import DeviceBlob.Error

/-!
# Failures of commands

A command that fails says what it could not do and, below that, why.
-/

namespace DeviceBlob.CommandLine

/-- What failed and why. -/
structure Failure where
  /-- What the command could not do. -/
  message : String
  /-- The causes, each one that of the one before it. -/
  causes : List String := []
  deriving DecidableEq, Repr

namespace Failure

/-- What a text that is not JSON is reported with. -/
def malformedText : String := "malformed text"

/-- The failure that consists in an error. -/
def ofError (error : Error) : Failure :=
  ⟨error.message, if error = .malformedJson then [malformedText] else []⟩

/-- The failure as the cause of a wider one. -/
def within (failure : Failure) (message : String) : Failure :=
  ⟨message, failure.message :: failure.causes⟩

/-- A cause behind its mark, further lines of it below the first one. -/
def causeText (mark indent : String) (cause : String) : String :=
  mark ++ ("\n" ++ indent).intercalate (cause.splitOn "\n")

/-- The list of causes.  One cause stands alone, and several are numbered. -/
def causesText : List String → String
  | [] => ""
  | [cause] => "\n\nCaused by:\n" ++ causeText "    " "    " cause
  | causes =>
    "\n\nCaused by:\n" ++ "\n".intercalate (causes.zipIdx.map fun (cause, position) =>
      let digits := toString position
      let padding := String.ofList (List.replicate (5 - digits.length) ' ')
      causeText (padding ++ digits ++ ": ") "       " cause)

/-- The report of a failure. -/
def text (failure : Failure) : String :=
  "Error: " ++ failure.message ++ causesText failure.causes ++ "\n"

end Failure

end DeviceBlob.CommandLine
