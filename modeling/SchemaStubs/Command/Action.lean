import SchemaStubs.Command.Help
import SchemaStubs.Command.Session
import SchemaStubs.Delivery.Compare
import SchemaStubs.Document.File
import SchemaStubs.Settings.File
import SchemaStubs.Text.Quoted

/-!
What the commands do.
-/

namespace SchemaStubs.Command

structure Generated where
  output : Stub.Output
  directory : String
  deriving Inhabited

def generateStubs (settings : Settings) (document : String) : Step Session Generated := do
  let format ← Step.ofExcept (Document.Format.detect document settings.format)
  let graph ← Step.ofExcept (Document.load (← get).disk document format.text)
  Session.record [.documentLoaded document format.text graph.size]
  let (result, events) := Stub.generate settings.stubOptions graph
  Session.record events
  let output ← Step.ofExcept result
  let directory := if settings.outputDirectory == "" then Files.Path.directory document
    else settings.outputDirectory
  pure { output, directory }

/-- Writes stubs and tells which of them were out of date. -/
def writeStubs (settings : Settings) (generated : Generated) : Step Session Unit := do
  let delivery : Step Files.Disk (List String) := fun disk =>
    match (Delivery.deliverAll generated.output generated.directory settings.typedMarker).outcome
        { disk } with
    | (.ok _, reached) => (.ok reached.written, reached.disk)
    | (.error fault, reached) => (.error fault, reached.disk)
  let written ← Session.onDisk delivery
  if written.isEmpty then
    Session.note .info ("Stubs in " ++ generated.directory ++ " are up to date")
  else written.forM fun path => Session.note .success ("Wrote " ++ path)

/-- The stubs one after the other; several are told apart by their paths. -/
def stubsText (files : List Stub.StubFile) : String :=
  match files with
  | [file] => file.content
  | _ => Text.joinWith "\n" (files.map fun file => "# " ++ file.path ++ "\n" ++ file.content)

def runGenerate (settings : Settings) (given : Given) (document : String) : Step Session Unit := do
  let generated ← generateStubs settings document
  if given.stdout then Session.output (stubsText generated.output.files)
  else writeStubs settings generated

def showDifference (difference : Delivery.Difference) : Step Session Unit :=
  if difference.missing then Session.note .warning (difference.path ++ " is missing")
  else do
    Session.note .warning (difference.path ++ " differs")
    Session.output difference.diff

def outOfDate : Fault :=
  let drift : Fault := Cause.drift
  drift.withHint "run 'stubgen generate' to update them"

def runCheck (settings : Settings) (document : String) : Step Session Unit := do
  let generated ← generateStubs settings document
  let compared := Delivery.compare generated.output generated.directory settings.typedMarker
    (← get).disk
  let differences ← (Step.ofExcept compared).inContext "failed to compare stubs"
  if differences.isEmpty then Session.note .success "Stubs are up to date"
  else do
    differences.forM showDifference
    Step.fail outOfDate

def regenerate (settings : Settings) (document : String) : Step Session Unit := do
  let generated ← generateStubs settings document
  writeStubs settings generated

/-- The first run of a watch; watching goes on if it fails. -/
def regenerateFirst (settings : Settings) (document : String) : Step Session Unit := fun session =>
  match (regenerate settings document).outcome session with
  | (.ok _, reached) => (.ok (), reached)
  | (.error fault, reached) =>
      let told : Step Session Unit := do
        Session.record [.firstGenerationFailed document fault.message]
        Session.note .error fault.message
      told reached

def runWatch (settings : Settings) (document : String) : Step Session Unit := do
  regenerateFirst settings document
  let watch ← Step.ofExcept (Watch.start (← get).disk document)
  Session.note .info ("Watching " ++ watch.path ++ " (Ctrl-C to stop)")
  let announced := watch.announce
  Session.record announced.journal
  modify fun session => { session with watch := some ({ watch with journal := [] }, settings) }

def runInit (given : Given) : Step Session Unit := do
  let directory := given.arguments.headD "."
  let path ← Session.onDisk (Settings.writeDefault directory given.force)
  Session.note .success ("Wrote " ++ path)

def buildJson (surroundings : Surroundings) : String :=
  let members := [("commit_hash", surroundings.build.commit),
    ("build_time", surroundings.build.time), ("version", surroundings.build.version),
    ("schema_formats", FormatVersion.readable), ("go_version", surroundings.toolchain),
    ("platform", surroundings.platform)]
  "\x7b\n" ++ Text.joinWith ",\n" (members.map fun (key, value) =>
    "  " ++ Text.jsonString key ++ ": " ++ Text.jsonStringForMarkup value) ++ "\n\x7d\n"

def buildLines (surroundings : Surroundings) : String :=
  surroundings.build.text ++ "\nSchema formats: " ++ FormatVersion.readable ++ "\nPlatform: " ++
    surroundings.platform ++ "\nGo: " ++ surroundings.toolchain ++ "\n"

def runVersion (surroundings : Surroundings) (given : Given) : Step Session Unit :=
  Session.output (if given.json then buildJson surroundings else buildLines surroundings)

def act (surroundings : Surroundings) (settings : Settings) (verb : Verb) (given : Given) :
    Step Session Unit :=
  let document := given.arguments.headD ""
  match verb with
  | .generate => runGenerate settings given document
  | .check => runCheck settings document
  | .watch => runWatch settings document
  | .init => runInit given
  | .version => runVersion surroundings given
  | .help => Session.output (helpAbout given.arguments)
  | .completion => Session.output (Topic.ofVerb .completion).page

end SchemaStubs.Command
