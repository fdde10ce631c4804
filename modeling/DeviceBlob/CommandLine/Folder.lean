import DeviceBlob.CommandLine.File
import DeviceBlob.Text.Pieces

/-!
# Files in memory

A `Folder` holds files in memory, so that commands run without a system.  A path is followed name by
name from the directory in which the program runs, or from the root if it begins with a slash.  Each
name but the last must be that of a directory that is there, also where `..` leads out of it again.
A path that ends in a slash names a directory, so no file is read or written through it.
-/

namespace DeviceBlob.CommandLine

/-- A place among the files: the names on the way to it.  Names `..` stand in front only, and lead
up from where the program runs. -/
abbrev Place := List String

namespace Place

/-- The name of the root. -/
def root : String := "/"

/-- The name that leads one directory up. -/
def up : String := ".."

/-- The place that a name leads to. -/
def child (place : Place) (name : String) : Place :=
  if name = "." then place
  else if name = up then
    match place.getLast? with
    | none => [up]
    | some last =>
      if last = root then place else if last = up then place ++ [up] else place.dropLast
  else place ++ [name]

end Place

/-- What there is at a place. -/
inductive Node where
  | directory
  | file (content : Bytes)
  deriving DecidableEq, Repr

/-- Files in memory. -/
structure Folder where
  /-- The files by their places. -/
  files : List (Place × Bytes)
  deriving DecidableEq, Repr

namespace Folder

/-- What there is at a place.  All places on the way to a file are directories. -/
def node? (folder : Folder) (place : Place) : Option Node :=
  match folder.files.lookup place with
  | some content => some (.file content)
  | none =>
    if place.all (· == Place.up) || place == [Place.root] ||
        folder.files.any fun (other, _) => place.isPrefixOf other then
      some .directory
    else none

/-- The files with one more, or with one replaced. -/
def put (folder : Folder) (place : Place) (content : Bytes) : Folder :=
  ⟨(place, content) :: folder.files.filter (·.1 != place)⟩

/-- What was put at a place is there. -/
@[simp] theorem node?_put (folder : Folder) (place : Place) (content : Bytes) :
    (folder.put place content).node? place = some (.file content) := by
  simp [node?, put]

/-! ### Paths -/

/-- A name has at most 255 bytes. -/
def isTooLong (name : String) : Bool := 255 < name.utf8ByteSize

/-- The names in a path. -/
def names (path : String) : List String :=
  ((Text.pieces '/' path.toList).filter (!·.isEmpty)).map String.ofList

/-- Goes from a directory to one below it, or above. -/
def enter (folder : Folder) (place : Place) (name : String) : Except FileFault Place :=
  if isTooLong name then .error .nameTooLong
  else match folder.node? (place.child name) with
    | some .directory => .ok (place.child name)
    | some (.file _) => .error .notDirectory
    | none => .error .notFound

/-- The directory of a path and the last name in it, which need not be there.  A path has at most
4095 bytes, and an empty one leads nowhere. -/
def locate (folder : Folder) (path : String) : Except FileFault (Place × String) := do
  if path.isEmpty then throw .notFound
  if 4095 < path.utf8ByteSize then throw .nameTooLong
  let start := if path.startsWith Place.root then [Place.root] else []
  let place ← (names path).dropLast.foldlM folder.enter start
  return (place, (names path).getLast?.getD ".")

/-- The content of the file at a path. -/
def read (folder : Folder) (path : String) : Except FileFault Bytes := do
  let (place, name) ← folder.locate path
  if isTooLong name then throw .nameTooLong
  match folder.node? (place.child name) with
  | some .directory => throw .isDirectory
  | some (.file content) =>
    if path.endsWith Place.root then throw .notDirectory
    return content
  | none => throw .notFound

/-- The files after one was written at a path. -/
def write (folder : Folder) (path : String) (content : Bytes) : Except FileFault Folder := do
  let (place, name) ← folder.locate path
  if path.endsWith Place.root then throw .isDirectory
  if isTooLong name then throw .nameTooLong
  match folder.node? (place.child name) with
  | some .directory => throw .isDirectory
  | _ => return folder.put (place.child name) content

/-- Access to files in memory. -/
def access : FileAccess (StateM Folder) where
  read path := do return (← get).read path
  write path content := do
    match (← get).write path content with
    | .ok folder =>
      set folder
      return .ok ()
    | .error fault => return .error fault

end Folder

end DeviceBlob.CommandLine
