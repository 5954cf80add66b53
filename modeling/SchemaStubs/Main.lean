import SchemaStubs.Command.Footprint
import Std.Time.DateTime.Timestamp

/-!
The program: it looks at the paths that matter to its command line, runs the command line on what it
found, and puts the result on the disk and on the screen.
-/

namespace SchemaStubs.Main

open Files

def probe (place : Place) : IO (Option Entry) := do
  let path := (← IO.currentDir) / Settings.pathOf place
  if ← path.isDir then
    return some .directory
  try
    return some (.file (← IO.FS.readFile path))
  catch _ =>
    return none

def look (disk : Disk) (path : String) : IO Disk := do
  let place := Path.elements (Path.absolute (Settings.pathOf disk.workingDirectory) path)
  let mut seen := disk
  for length in [1 : place.length + 1] do
    match ← probe (place.take length) with
    | some entry => seen := seen.put (place.take length) entry
    | none => return seen
  return seen

def lookAll (disk : Disk) (paths : List String) : IO Disk :=
  paths.foldlM look disk

def store (before after : Disk) : IO Unit := do
  for (place, entry) in after.entries.entries do
    if before.entry? place != some entry then
      let path := Settings.pathOf place
      match entry with
      | .directory => IO.FS.createDirAll path
      | .file content => IO.FS.writeFile path content

def environment : IO (List (String × String)) := do
  let names := Settings.Key.all.map (fun key => Settings.Key.variableName key.path) ++
    Settings.Key.tables.map fun table => Settings.Key.variableName [table]
  names.filterMapM fun name => do
    return (← IO.getEnv name).map fun value => (name, value)

def now : IO Int := do
  return (← Std.Time.Timestamp.now).toSecondsSinceUnixEpoch.val

def tell (style : Journal.Style) (printed : List Command.Print) (journal : List Journal.Event)
    (elapsed : Nat) : IO Unit := do
  IO.eprint ({ style with coloured := true }.text (← now)
    (journal.map (Journal.Event.entry elapsed)))
  for entry in printed do
    IO.print entry.text
  (← IO.getStdout).flush

/-- Waits until the document changed and was then left alone for the quiet time. -/
def awaitChange (path : String) (debounce : UInt32) (known : Option Entry) : IO Unit := do
  let place := Path.elements path
  let mut changed := false
  let mut last := known
  repeat
    IO.sleep debounce
    let current ← probe place
    if current != last && current.isSome then
      changed := true
      last := current
    else if changed then
      return

def follow (disk : Disk) (style : Journal.Style) (watch : Watch) (settings : Settings) :
    IO Unit := do
  let mut watch := watch
  repeat
    let known ← probe (Path.elements watch.path)
    awaitChange watch.path (UInt32.ofNat settings.effectiveDebounce.toNat) known
    let start ← IO.monoMsNow
    let read ← lookAll { disk with entries := {} } [watch.path]
    let generation := Command.generateStubs settings watch.path
    let seen ← match generation.outcome { disk := read } with
      | (.ok generated, _) => lookAll read (Command.stubPaths generated)
      | (.error _, _) => pure read
    let (result, session) :=
      (Command.regenerate settings watch.path).outcome { disk := seen, style }
    store seen session.disk
    watch := { watch with journal := [] }.regenerated result
    tell style session.printed (session.journal ++ watch.journal) ((← IO.monoMsNow) - start)

end SchemaStubs.Main

open SchemaStubs SchemaStubs.Main in
def main (arguments : List String) : IO UInt32 := do
  let start ← IO.monoMsNow
  let empty : Files.Disk :=
    { workingDirectory := Files.Path.elements (← IO.currentDir).toString }
  let read ← lookAll empty (Command.sources empty arguments)
  let surroundings : Command.Surroundings :=
    { disk := read, environment := ← environment, platform := "unknown", toolchain := "unknown" }
  let disk ← lookAll read (Command.targets surroundings arguments)
  let outcome := Command.run { surroundings with disk } arguments
  let session := outcome.session
  store disk session.disk
  tell session.style session.printed session.journal ((← IO.monoMsNow) - start)
  match session.watch with
  | some (watch, settings) => follow disk session.style watch settings
  | none => pure ()
  match outcome.result with
  | .ok _ => pure ()
  | .error fault => IO.eprintln ("Error: " ++ fault.message)
  return UInt32.ofNat outcome.exitCode
