import SchemaStubs.Stub.Draft
import SchemaStubs.Stub.Literal

/-!
The aliases that the files of a schema ask for. A file that the walk reached asks for all its
declarations in their own order, reached or not, so that its aliases come out the same whatever
other files take part in a run.
-/

namespace SchemaStubs.Stub

/-- The declarations under a node: the node itself unless it is a file, then what is nested in it,
then its groups in the order of its fields; `bound` limits how deep. -/
def declarationsFrom (graph : Graph) : Nat → Id → List Id
  | 0, _ => []
  | bound + 1, id =>
      match graph.node? id with
      | none => []
      | some node =>
          (if node.kind == .file then [] else [id]) ++
            node.nested.flatMap (declarationsFrom graph bound) ++
            ((node.fields.filter Field.isGroup).map Field.group).flatMap
              (declarationsFrom graph bound)

def declarationOrder (graph : Graph) (file : Id) : List Id :=
  declarationsFrom graph (graph.size + 1) file

def declaringFiles (graph : Graph) (ids : List Id) : List Node :=
  ((ids.filterMap fun id => (graph.file id).toOption.map Node.id).eraseDups).filterMap graph.node?

/-- The name of a node in its aliases; a group goes by its field. -/
def exposedName (graph : Graph) (node : Node) : String :=
  Text.pascal (((graph.groupField? node.id).map Field.name).getD node.name)

/-- The names of the scopes around a node, the outermost first; anonymous groups do not show. -/
def scopeNames (graph : Graph) (node : Node) : Except Fault (List String) := do
  let scopes ← graph.ancestors node.id
  .ok ((scopes.filter fun scope => !graph.isAnonymousGroup scope).map (exposedName graph))

/-- What the aliases of a node stand for; nodes without a class have none. -/
def aliasTargets (graph : Graph) (node : Node) (internal : String) : List (Role × String) :=
  match node.kind with
  | .struct =>
      if graph.isAnonymousGroup node then []
      else [(.reader, internal ++ ".Reader"), (.builder, internal ++ ".Builder")]
  | .enum => [(.enum, internal ++ ".Value | int")]
  | .interface => [(.client, internal ++ ".Client"), (.server, internal ++ ".Server")]
  | _ => []

/-- The methods of an interface; members of other kinds do not count. -/
def exposedMethods (node : Node) : List Method :=
  if node.kind = .interface then node.methods else []

def methodRequest (whole : Request) (internal : String) (method : Method) : Request :=
  let stem := Text.pascal method.name
  { whole with
    subject := { node := whole.subject.node, method := method.name }
    declared := whole.declared ++ "." ++ method.name
    base := stem
    qualifiers := whole.qualifiers ++ [whole.base]
    targets := [(.result, internal ++ "." ++ stem ++ "Result")] }

/-- What a node with an identifier asks for: aliases of its own and of the results of its
methods. -/
def nodeRequests (graph : Graph) (node : Node) (order : Nat) (internal : String) :
    Except Fault (List Request) :=
  let targets := aliasTargets graph node internal
  if targets.isEmpty then .ok []
  else do
    let file ← graph.file node.id
    let qualifiers ← scopeNames graph node
    let whole : Request := {
      subject := { node := node.id }
      declared := node.displayName
      base := exposedName graph node
      qualifiers
      fileQualifier := Location.fileQualifier file.name
      file := file.id
      order
      targets }
    .ok (whole :: (exposedMethods node).map (methodRequest whole internal))

def requestNode (graph : Graph) (node : Node) (order : Nat) : Step Registry Unit := do
  let registry ← get
  let internal := (registry.internal? node.id).getD ""
  let wishes ← Step.ofExcept (nodeRequests graph node order internal)
  wishes.forM Registry.request

def requestDeclaration (graph : Graph) (entry : Nat × Id) : Step Registry Unit :=
  match graph.node? entry.2 with
  | none => pure ()
  | some node => do
      let _ ← Registry.register graph node.id
      requestNode graph node entry.1

/-- Keeps the names of the top level of a file out of its aliases. -/
def reserveTopLevel (graph : Graph) (file : Node) : Step Registry Unit :=
  (file.nested.filterMap graph.node?).forM fun node =>
    if node.kind = .annotationDecl then pure ()
    else Registry.reserve file.id (safeName node.name) node.id

def requestFile (graph : Graph) (file : Node) : Step Registry Unit := do
  reserveTopLevel graph file
  let declarations := declarationOrder graph file.id
  ((List.range declarations.length).zip declarations).forM (requestDeclaration graph)

def requestAliases (graph : Graph) (reached : List Id) : Step Registry Unit :=
  (declaringFiles graph reached).forM (requestFile graph)

end SchemaStubs.Stub
