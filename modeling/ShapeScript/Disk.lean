/-
ShapeScript.Disk — the files and directories that a run sees.

A disk is a value: what stands at each absolute path. Reading, writing
and making directories are functions on it, with the errors that a file
system gives. Directories above the working directory, and the working
directory itself, are always there. A path is followed from the top, and
the first name on it that does not lead on stops the operation; but a
path that is none, or is too long as a whole, is not followed at all.
-/
import ShapeScript.Path

namespace ShapeScript

/-- What stands at a path. -/
inductive DiskEntry where
  | file (content : ByteArray)
  | directory

/-- Why the file system refuses an operation. -/
inductive DiskError where
  | notFound
  | occupied
  | notDirectory
  | isDirectory
  | nameTooLong
  | embeddedNul
  deriving DecidableEq, Repr

namespace DiskError

/-- The number of the error. A text that is no path has none: it never
reaches the file system. -/
def number? : DiskError → Option Nat
  | notFound => some 2
  | occupied => some 17
  | notDirectory => some 20
  | isDirectory => some 21
  | nameTooLong => some 36
  | embeddedNul => none

/-- The text of the error. -/
def description : DiskError → String
  | notFound => "No such file or directory"
  | occupied => "File exists"
  | notDirectory => "Not a directory"
  | isDirectory => "Is a directory"
  | nameTooLong => "File name too long"
  | embeddedNul => "embedded null byte"

end DiskError

/-- The entries by path, and the working directory. A path that occurs
twice has its first entry. -/
structure Disk where
  workingDirectory : String
  entries : List (String × DiskEntry)

namespace Disk

/-- The absolute form of a path. -/
def absolute (d : Disk) (path : String) : String := Path.absolute d.workingDirectory path

/-- The place that an absolute path leads to: two slashes at its start
are the root as one is. -/
def placeOf (path : String) : String :=
  match path.toList with
  | '/' :: '/' :: cs => String.ofList ('/' :: cs)
  | _ => path

/-- A directory that is always there: the working directory or one above
it. -/
def isAncestor (d : Disk) (path : String) : Bool :=
  let place := placeOf path
  place == d.workingDirectory || place == "/" || place == "" ||
    (place ++ "/").toList.isPrefixOf d.workingDirectory.toList

/-- What stands at an absolute path. -/
def entry? (d : Disk) (path : String) : Option DiskEntry :=
  if d.isAncestor path then some .directory else d.entries.lookup (placeOf path)

/-- The directories on the way to an absolute path, nearest first, as far
as they are not always there. -/
def parents (d : Disk) : Nat → String → List String
  | 0, _ => []
  | steps + 1, path =>
    let parent := Path.directoryOf path
    if d.isAncestor parent then [] else parent :: parents d steps parent

/-- The directories on the way to an absolute path, nearest first. -/
def parentsOf (d : Disk) (path : String) : List String := d.parents path.length path

/-- The most bytes that a name can have. -/
def nameLimit : Nat := 255

/-- The most bytes that a path can have. -/
def pathLimit : Nat := 4095

/-- The last name of a path is longer than a name can be. -/
def hasLongName (path : String) : Bool :=
  nameLimit < (String.ofList (Path.lastName path.toList)).utf8ByteSize

/-- Why a path is not followed at all. -/
def refusal? (path : String) : Option DiskError :=
  if path.toList.contains '\x00' then some .embeddedNul
  else if pathLimit < path.utf8ByteSize then some .nameTooLong
  else none

/-- Why nothing stands at a path below a directory. -/
def absence (path : String) : DiskError := if hasLongName path then .nameTooLong else .notFound

/-- The way along some directories, the last first: one that is missing or
is a file stops it. -/
def wayAlong (d : Disk) : List String → Except DiskError Unit
  | [] => .ok ()
  | parent :: parents =>
    match d.wayAlong parents with
    | .error e => .error e
    | .ok () =>
      match d.entry? parent with
      | none => .error (absence parent)
      | some (.file _) => .error .notDirectory
      | some .directory => .ok ()

/-- The way to the directory that an absolute path lies in. -/
def wayTo (d : Disk) (path : String) : Except DiskError Unit :=
  match refusal? path with
  | some e => .error e
  | none => d.wayAlong (d.parentsOf path)

/-- The content of the file at an absolute path. -/
def read (d : Disk) (path : String) : Except DiskError ByteArray :=
  match d.wayTo path with
  | .error e => .error e
  | .ok () =>
    match d.entry? path with
    | none => .error (absence path)
    | some .directory => .error .isDirectory
    | some (.file content) => .ok content

/-- The disk with something at a path. -/
def put (d : Disk) (path : String) (e : DiskEntry) : Disk :=
  let place := placeOf path
  { d with entries := (place, e) :: d.entries.filter (·.1 != place) }

/-- Writes a text to a file at an absolute path. -/
def write (d : Disk) (path text : String) : Except DiskError Disk :=
  match d.wayTo path with
  | .error e => .error e
  | .ok () =>
    match d.entry? path with
    | some .directory => .error .isDirectory
    | _ => if hasLongName path then .error .nameTooLong else .ok (d.put path (.file text.toUTF8))

/-- Makes a directory in one that is there. -/
def makeOne (d : Disk) (path : String) : Except DiskError Disk :=
  match refusal? path with
  | some e => .error e
  | none => if hasLongName path then .error .nameTooLong else .ok (d.put path .directory)

/-- Makes the directories on a list, the last first; those that are there
are left alone. -/
def makeAll (d : Disk) : List String → Except DiskError Disk
  | [] => .ok d
  | path :: parents =>
    match d.entry? path with
    | some .directory => .ok d
    | some (.file _) => .error .occupied
    | none =>
      match d.makeAll parents with
      | .error .occupied => .error ((refusal? path).getD .notDirectory)
      | .error e => .error e
      | .ok d => d.makeOne path

/-- Makes a directory at an absolute path, and those on the way to it. -/
def makeDirectories (d : Disk) (path : String) : Except DiskError Disk :=
  if d.isAncestor path then .ok d else d.makeAll (path :: d.parentsOf path)

end Disk

end ShapeScript
