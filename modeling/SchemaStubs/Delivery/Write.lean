import SchemaStubs.Files.Disk
import SchemaStubs.Step
import SchemaStubs.Stub.Generation

/-!
Writing stubs below an output directory. A file that already has its content is left alone, and a
marker says that the directory holds type information.
-/

namespace SchemaStubs.Delivery

def typedMarker : String :=
  "py.typed"

structure Progress where
  disk : Files.Disk
  written : List String := []
  deriving Inhabited

/-- The directory is made if need be; `context` is the context of a failure. -/
def makeDirectories (directory context : String) : Step Files.Disk Unit := fun disk =>
  let (result, reached) := disk.makeDirectories directory
  (result.mapError fun reason => ⟨.refusal ⟨"mkdir", directory, reason⟩, [context], []⟩, reached)

def putFile (path content context : String) : Step Files.Disk Unit := do
  let written ← Step.ofExcept (((← get).write path content).mapError fun reason =>
    ⟨.refusal ⟨"open", path, reason⟩, [context], []⟩)
  set written

/-- The directory a file stands in is made if need be. -/
def writeFile (path content : String) : Step Files.Disk Unit := do
  makeDirectories (Files.Path.directory path) ("failed to create directory for " ++ path)
  putFile path content ("failed to write " ++ path)

def isCurrent (disk : Files.Disk) (path content : String) : Bool :=
  match disk.read path with
  | .ok existing => existing == content
  | .error _ => false

/-- Writes a file unless it has its content already; `name` is the path that is reported. -/
def deliver (directory name content : String) : Step Progress Unit := do
  let delivery ← get
  let path := Files.Path.join [directory, name]
  if isCurrent delivery.disk path content then pure ()
  else do
    (writeFile path content).onPart Progress.disk fun disk delivery => { delivery with disk }
    modify fun delivery => { delivery with written := delivery.written ++ [name] }

/-- Writes the marker where there is none; whatever stands in its place is left alone. -/
def deliverMarker (directory : String) : Step Progress Unit := do
  let delivery ← get
  if delivery.disk.lacks (Files.Path.join [directory, typedMarker]) then
    deliver directory typedMarker ""

def deliverAll (output : Stub.Output) (directory : String) (marker : Bool) :
    Step Progress Unit := do
  output.files.forM fun file => deliver directory file.path file.content
  if marker then deliverMarker directory

end SchemaStubs.Delivery
