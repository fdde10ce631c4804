import DeviceBlob.Bytes

/-!
# Files

What commands need of a file system: to read a whole file and to write one, either of which can
fail.  Commands take it as a value, so they run on any files.
-/

namespace DeviceBlob.CommandLine

/-- Why a file cannot be read or written. -/
inductive FileFault where
  | notFound
  | denied
  | notDirectory
  | isDirectory
  | nameTooLong
  /-- The file is not text in UTF-8. -/
  | notText
  /-- Another reason, in words. -/
  | other (reason : String)
  deriving DecidableEq, Repr

/-- The fault in words. -/
def FileFault.message : FileFault → String
  | notFound => "No such file or directory (os error 2)"
  | denied => "Permission denied (os error 13)"
  | notDirectory => "Not a directory (os error 20)"
  | isDirectory => "Is a directory (os error 21)"
  | nameTooLong => "File name too long (os error 36)"
  | notText => "stream did not contain valid UTF-8"
  | other reason => reason

/-- Access to files. -/
structure FileAccess (m : Type → Type) where
  /-- Reads the file at a path. -/
  read : String → m (Except FileFault Bytes)
  /-- Writes the file at a path, in place of what was there. -/
  write : String → Bytes → m (Except FileFault Unit)

/-- The text that bytes encode. -/
def textOfBytes (bytes : Bytes) : Except FileFault String :=
  match String.fromUTF8? (ByteArray.mk bytes.toArray) with
  | some text => .ok text
  | none => .error .notText

/-- The bytes that encode a text. -/
def bytesOfText (text : String) : Bytes := text.toUTF8.data.toList

end DeviceBlob.CommandLine
