import SchemaStubs.Stub.File
import SchemaStubs.Stub.PublicNames
import SchemaStubs.Walk.Visit

/-!
A generation run: walk the schema from the requested files, give out the aliases, and draft one stub
for each requested file. A run gives all stubs or fails.
-/

namespace SchemaStubs.Stub

def language : String :=
  "python"

def fileExtension : String :=
  "pyi"

structure StubFile where
  /-- The schema file it was generated from. -/
  source : String
  /-- Its path below the output directory. -/
  path : String
  content : String
  deriving DecidableEq, Repr, Inhabited

structure PublicName where
  name : String
  target : String
  role : Role
  node : Id
  source : String
  deriving DecidableEq, Repr, Inhabited

structure Output where
  /-- One file for each requested file, in the order of the requests. -/
  files : List StubFile
  /-- The public names of these files by name. -/
  names : List PublicName := []
  deriving DecidableEq, Repr, Inhabited

namespace Output

def file? (output : Output) (source : String) : Option StubFile :=
  output.files.find? fun file => file.source == source

def paths (output : Output) : List String :=
  Text.sorted (output.files.map StubFile.path)

end Output

namespace Generation

/-- A stub with the file it belongs to and the imports it was laid out with. -/
structure Drafted where
  file : Node
  imports : List Import
  stub : StubFile
  deriving Inhabited

def survey (graph : Graph) (roots : List Id) : Step Registry Walk :=
  (Walk.run graph roots).within (fun registry => { registry }) Walk.registry fun _ walk => walk

/-- The text of a stub: its declarations are found and then laid out. -/
def compose (plan : Plan) (file : Node) : Step Draft String := do
  let declarations ← (declareFile plan).inContext ("synthesizing " ++ file.name)
  (layOut plan declarations).inContext ("emitting " ++ file.name)

/-- Drafts one stub from the beginning; its text and its imports are what stays of the draft. -/
def draft (plan : Plan) (file : Node) : Step Registry (String × List Import) :=
  (compose plan file).within (fun registry => { registry, file }) Draft.registry
    fun content draft => (content, draft.imports)

/-- Adds the stub of a file to those drafted before. Two stubs cannot have one path. -/
def addFile (plan : Plan) (before : List Drafted) (id : Id) : Step Registry (List Drafted) := do
  let file ← Step.ofExcept (plan.graph.file id)
  let path := Location.outputPath plan.options.suffix file.name
  match before.find? fun drafted => drafted.stub.path == path with
  | some other => Step.fail (Cause.nameCollision path other.file.id id)
  | none => do
      let (content, imports) ← draft plan file
      Registry.note (.stubGenerated file.name path)
      pure (before ++ [{ file, imports, stub := { source := file.name, path, content } }])

def publicNames (registry : Registry) (drafted : List Drafted) : List PublicName :=
  registry.table.filterMap fun entry =>
    (drafted.find? fun drafted => drafted.file.id == entry.file).map fun drafted =>
      { name := entry.name
        target := entry.target
        role := entry.role
        node := entry.subject.node
        source := drafted.file.name }

def draftAll (options : Options) (graph : Graph) : Step Registry (List Drafted) := do
  let roots := graph.requested.eraseDups
  let walk ← survey graph roots
  requestAliases graph walk.order
  Registry.resolve
  let plan : Plan := { graph, options, order := walk.order, references := walk.references }
  roots.foldlM (addFile plan) []

def run (options : Options) (graph : Graph) : Step Registry Output := do
  let drafted ← draftAll options graph
  let registry ← get
  if !registry.undeclared.isEmpty then
    Step.fail (Cause.pendingReference registry.undeclared)
  else do
    let output : Output := {
      files := drafted.map Drafted.stub
      names := publicNames registry drafted }
    Registry.note (.generationCompleted output.files.length)
    pure output

end Generation

/-- A run needs a schema. -/
def present (graph : Option Graph) : Except Fault Graph :=
  match graph with
  | some graph => .ok graph
  | none => .error (Cause.message "nil schema graph")

/-- The stubs of a schema, or the reason why there are none, and what the run has to tell. -/
def generate (options : Options) (graph : Graph) : Except Fault Output × List Journal.Event :=
  let (result, registry) := (Generation.run options graph).outcome {}
  (result, registry.journal)

end SchemaStubs.Stub
