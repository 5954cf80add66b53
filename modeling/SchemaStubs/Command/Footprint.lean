import SchemaStubs.Command.Run

/-!
The paths that matter to a command line. A run sees the disk only through them, so a caller that
wants to run it on a real disk has to look at these and no others.
-/

namespace SchemaStubs.Command

/-- The places a settings file may stand in above the working directory. -/
def settingsPaths (disk : Files.Disk) : List String :=
  (Settings.upwards disk.workingDirectory).map fun place =>
    Settings.pathOf (place ++ [Settings.fileName])

def settingsTargets (directory : String) : List String :=
  [Settings.pathIn directory, Settings.pathIn directory ++ ".back1"]

/-- The paths that are known before anything is read: every argument may name a document or the
directory of a settings file. -/
def sources (disk : Files.Disk) (arguments : List String) : List String :=
  settingsPaths disk ++ arguments ++ ("." :: arguments).flatMap settingsTargets

def stubPaths (generated : Generated) : List String :=
  (Delivery.typedMarker :: generated.output.files.map Stub.StubFile.path).map fun path =>
    Files.Path.join [generated.directory, path]

/-- The paths that are known once the sources were read: those of the stubs. -/
def targets (surroundings : Surroundings) (arguments : List String) : List String :=
  let generation : Step Session (List String) := do
    match ← understand surroundings arguments with
    | .page _ => pure []
    | .work verb settings given =>
        if verb ∈ [.generate, .check, .watch] then do
          let generated ← generateStubs settings (given.arguments.headD "")
          pure (stubPaths generated)
        else pure []
  match generation.outcome { disk := surroundings.disk } with
  | (.ok paths, _) => paths
  | (.error _, _) => []

end SchemaStubs.Command
