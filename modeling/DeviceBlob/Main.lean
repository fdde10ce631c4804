import DeviceBlob.CommandLine.Run

/-!
# The program

Runs a command line on the files of the system.
-/

namespace DeviceBlob.CommandLine

/-- The reason for which the system refused access to a file. -/
def FileFault.ofSystem : IO.Error → FileFault
  | .noFileOrDirectory _ _ _ => .notFound
  | .permissionDenied _ _ _ => .denied
  | .inappropriateType _ 20 _ => .notDirectory
  | .inappropriateType _ 21 _ => .isDirectory
  | .invalidArgument _ 36 _ => .nameTooLong
  | error => .other (toString error)

/-- Does something to the system's files. -/
def guarded {α : Type} (action : IO α) : IO (Except FileFault α) := do
  match ← action.toBaseIO with
  | .ok result => return .ok result
  | .error error => return .error (.ofSystem error)

/-- The files of the system. -/
def systemFiles : FileAccess IO where
  read path := guarded do return (← IO.FS.readBinFile path).data.toList
  write path bytes := guarded (IO.FS.writeBinFile path (ByteArray.mk bytes.toArray))

end DeviceBlob.CommandLine

/-- Runs the program. -/
def main (arguments : List String) : IO UInt32 := do
  let report ← DeviceBlob.CommandLine.runProgram DeviceBlob.CommandLine.systemFiles arguments
  IO.print report.output
  IO.eprint report.complaint
  return report.status
