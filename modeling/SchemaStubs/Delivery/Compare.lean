import SchemaStubs.Delivery.Diff
import SchemaStubs.Delivery.Write
import SchemaStubs.Text.Join

/-!
Comparing stubs with the files below an output directory. Only the lines count, not how they end: a
line ends at a line feed, and up to two carriage returns before it do not count; what follows the last
line feed is a line unless it is empty.
-/

namespace SchemaStubs.Delivery

/-- A line of this size or more cannot be read. -/
def longestLine : Nat :=
  16 * 1024 * 1024

def rawLines (content : String) : List String :=
  let pieces := Text.splitAt '\n' content
  if pieces.getLast? = some "" then pieces.dropLast else pieces

def dropReturn (line : String) : String :=
  Text.dropEnd "\r" line

/-- The lines of a text, each without carriage returns at its end and with a line feed. A text with
a line that cannot be read counts as empty. -/
def normalizeLines (content : String) : String :=
  let lines := rawLines content
  if lines.any fun line => longestLine ≤ Text.size line then ""
  else Text.concat (lines.map fun line => dropReturn (dropReturn line) ++ "\n")

structure Difference where
  path : String
  missing : Bool := false
  /-- The change from the file on disk to the generated one. -/
  diff : String := ""
  deriving DecidableEq, Repr, Inhabited

def differenceOf (path existing generated : String) : List Difference :=
  let present := normalizeLines existing
  let want := normalizeLines generated
  if present == want then []
  else
    let diff := Diff.unified (path ++ " (on disk)") (path ++ " (generated)") present want
    [{ path, diff }]

def compareFile (disk : Files.Disk) (directory : String) (file : Stub.StubFile) :
    Except Fault (List Difference) :=
  let path := Files.Path.join [directory, file.path]
  match disk.read path with
  | .ok existing => .ok (differenceOf file.path existing file.content)
  | .error .missing => .ok [{ path := file.path, missing := true }]
  | .error reason =>
      let refused : Fault := Cause.refusal (.ofRead path reason)
      .error (refused.withContext ("failed to read " ++ path))

def compareMarker (disk : Files.Disk) (directory : String) : List Difference :=
  if disk.lacks (Files.Path.join [directory, typedMarker]) then
    [{ path := typedMarker, missing := true }]
  else []

/-- The differences between the files of a run and those on the disk, in order; stubs without any
are up to date. -/
def compare (output : Stub.Output) (directory : String) (marker : Bool) (disk : Files.Disk) :
    Except Fault (List Difference) := do
  let differences ← output.files.mapM (compareFile disk directory)
  .ok (differences.flatten ++ if marker then compareMarker disk directory else [])

end SchemaStubs.Delivery
