import SchemaStubs.Fault
import SchemaStubs.Files.Disk
import SchemaStubs.Journal.Event

/-!
Watching a schema document. The directory of the document is watched, so that an editor may put a
new file in its place; of the changes seen there, only those that bring new content to the document
count, and each of them starts the quiet time anew. When the quiet time is over, the stubs are
generated again.
-/

namespace SchemaStubs

inductive Operation where
  | create
  | remove
  | write
  | rename
  | chmod
  deriving DecidableEq, Repr

namespace Operation

def all : List Operation :=
  [create, remove, write, rename, chmod]

def text : Operation → String
  | create => "CREATE"
  | remove => "REMOVE"
  | write => "WRITE"
  | rename => "RENAME"
  | chmod => "CHMOD"

end Operation

structure Change where
  path : String
  operations : List Operation
  deriving DecidableEq, Repr

namespace Change

def has (change : Change) (operation : Operation) : Bool :=
  change.operations.contains operation

def text (change : Change) : String :=
  Text.joinWith "|" ((Operation.all.filter change.has).map Operation.text)

end Change

inductive Signal where
  | changed (change : Change)
  | disturbed (problem : String)
  deriving DecidableEq, Repr

structure Watch where
  /-- The document, seen from the root. -/
  path : String
  /-- Whether the quiet time runs. -/
  waiting : Bool := false
  /-- How often the stubs were generated again. -/
  runs : Nat := 0
  journal : List Journal.Event := []
  deriving DecidableEq, Repr

namespace Watch

/-- A watch on a document; its directory has to be there. -/
def start (disk : Files.Disk) (document : String) : Except Fault Watch :=
  let directory := "/" ++ Text.joinWith "/" disk.workingDirectory
  let path := Files.Path.absolute directory document
  if disk.holds (Files.Path.directory path) then .ok { path }
  else
    let missing : Fault := Cause.message "no such file or directory"
    .error (missing.withContext ("failed to watch directory of " ++ path))

/-- Whether a change brings new content to the document. -/
def concerns (watch : Watch) (change : Change) : Bool :=
  Files.Path.clean change.path == watch.path && (change.has .write || change.has .create)

def note (watch : Watch) (event : Journal.Event) : Watch :=
  { watch with journal := watch.journal ++ [event] }

def announce (watch : Watch) : Watch :=
  watch.note (.watchStarted watch.path)

def receive (watch : Watch) : Signal → Watch
  | .changed change =>
      if watch.concerns change then
        { watch.note (.changeSeen change.path change.text) with waiting := true }
      else watch
  | .disturbed problem => watch.note (.watchDisturbed problem)

/-- The watch after it announced itself and received the signals in order, and was then stopped. -/
def observe (watch : Watch) (signals : List Signal) : Watch :=
  { signals.foldl receive watch.announce with waiting := false }

/-- The watch after the quiet time, when generating the stubs again ended with the given result. -/
def regenerated (watch : Watch) (result : Except Fault Unit) : Watch :=
  let counted := { watch with runs := watch.runs + 1, waiting := false }
  match result with
  | .ok _ => counted.note (.regenerated watch.path)
  | .error fault => counted.note (.regenerationFailed watch.path fault.message)

end Watch

end SchemaStubs
