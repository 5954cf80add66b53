import SchemaStubs.Files.Path
import SchemaStubs.Files.Refusal
import SchemaStubs.Table

/-!
A disk: files and directories by their place, which is the list of names that leads to them from the
root. A path is followed name by name, and every name before the last has to be a directory.
-/

namespace SchemaStubs.Files

inductive Entry where
  /-- The content is text: a file whose bytes are no UTF-8 is left out. -/
  | file (content : String)
  | directory
  deriving DecidableEq, Repr, Inhabited

/-- The names that lead from the root to a file or directory. -/
abbrev Place := List String

structure Disk where
  entries : Table Place Entry := {}
  /-- Where paths that are not rooted start. -/
  workingDirectory : Place := []
  deriving Inhabited

namespace Disk

/-- What stands at a place. The root is always there. -/
def entry? (disk : Disk) (place : Place) : Option Entry :=
  if place.isEmpty then some .directory else disk.entries.get? place

def longestName : Nat :=
  255

def longestPath : Nat :=
  4095

def follow (disk : Disk) (place : Place) (name : String) : Except Reason Place :=
  match disk.entry? place with
  | none => .error .missing
  | some (.file _) => .error .notDirectory
  | some .directory =>
      if name == "" || name == "." then .ok place
      else if name == ".." then .ok place.dropLast
      else if longestName < Text.size name then .error .nameTooLong
      else .ok (place ++ [name])

def start (disk : Disk) (path : String) : Place :=
  if Path.isRooted path then [] else disk.workingDirectory

def pathFault? (path : String) : Option Reason :=
  if path == "" then some .missing
  else if path.toList.contains (Char.ofNat 0) then some .invalidName
  else if longestPath < Text.size path then some .nameTooLong
  else none

/-- The place a path leads to; nothing has to stand there yet. -/
def locate (disk : Disk) (path : String) : Except Reason Place :=
  match pathFault? path with
  | some reason => .error reason
  | none => (Text.splitAt '/' path).foldlM disk.follow (disk.start path)

def lookup (disk : Disk) (path : String) : Except Reason Entry := do
  let place ← disk.locate path
  match disk.entry? place with
  | none => .error .missing
  | some entry => .ok entry

def read (disk : Disk) (path : String) : Except Reason String := do
  match ← disk.lookup path with
  | .file content => .ok content
  | .directory => .error .isDirectory

def holds (disk : Disk) (path : String) : Bool :=
  (disk.lookup path).toBool

/-- Whether a path leads to nothing because nothing stands there. -/
def lacks (disk : Disk) (path : String) : Bool :=
  match disk.lookup path with
  | .error .missing => true
  | _ => false

def put (disk : Disk) (place : Place) (entry : Entry) : Disk :=
  { disk with entries := disk.entries.set place entry }

def write (disk : Disk) (path content : String) : Except Reason Disk := do
  let place ← disk.locate path
  match disk.entry? place with
  | some .directory => .error .isDirectory
  | _ => .ok (disk.put place (.file content))

/-- Goes one name down and makes a directory where nothing stands. -/
def enter (disk : Disk) (place : Place) (name : String) : Except Reason (Disk × Place) := do
  let next ← disk.follow place name
  match disk.entry? next with
  | none => .ok (disk.put next .directory, next)
  | some .directory => .ok (disk, next)
  | some (.file _) => .error .notDirectory

/-- Makes the directories that the names lead to one below the other. The disk keeps those that were
made before a failure. -/
def descend (disk : Disk) (place : Place) : List String → Except Reason Unit × Disk
  | [] => (.ok (), disk)
  | name :: rest =>
      match disk.enter place name with
      | .ok (reached, next) => reached.descend next rest
      | .error reason => (.error reason, disk)

def makeDirectories (disk : Disk) (path : String) : Except Reason Unit × Disk :=
  match pathFault? path with
  | some reason => (.error reason, disk)
  | none => disk.descend (disk.start path) (Text.splitAt '/' path)

def remove (disk : Disk) (path : String) : Disk :=
  match disk.locate path with
  | .error _ => disk
  | .ok place =>
      { disk with
        entries := ⟨disk.entries.entries.filter fun entry => !place.isPrefixOf entry.1⟩ }

/-- The files and directories below a place, by the names that lead there from it. -/
def below (disk : Disk) (place : Place) : List (Place × Entry) :=
  (disk.entries.entries.filter fun entry =>
    place.isPrefixOf entry.1 && entry.1 != place).map fun entry =>
      (entry.1.drop place.length, entry.2)

end Disk

end SchemaStubs.Files
