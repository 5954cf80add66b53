import SchemaStubs.Schema.Check

/-!
A schema graph: the nodes of a document in document order, and the files stubs are asked for. A
graph is built once, checked, and only read after that. A node stands in a file, inside scopes, and a
group is the body of a field; scopes are followed upwards, and a chain longer than the number of nodes
goes round in a circle and is refused.
-/

namespace SchemaStubs

structure Graph where
  nodes : List Node
  requested : List Id
  deriving Repr, Inhabited

namespace Graph

def node? (graph : Graph) (id : Id) : Option Node :=
  findNode? graph.nodes id

def size (graph : Graph) : Nat :=
  graph.nodes.length

/-- Takes the nodes of a document in order, each present, identified and met for the first time,
and completes their names. -/
def collect : Nat → List Id → List (Option Node) → Except Fault (List Node)
  | _, _, [] => .ok []
  | index, _, none :: _ => .error (Defect.emptyNode index)
  | index, seen, some node :: rest =>
      if node.id = 0 then .error (Defect.nodeWithoutId index node.displayName)
      else if node.id ∈ seen then .error (Defect.repeatedId node.id)
      else do
        let others ← collect (index + 1) (node.id :: seen) rest
        .ok (node.withNames :: others)

def checkRequested (nodes : List Node) (id : Id) : Except Fault Unit :=
  match findNode? nodes id with
  | none => .error (Defect.requestedMissing id)
  | some node =>
      if node.kind == .file then .ok () else .error (Defect.requestedNotFile id node.kind)

/-- The graph of a document, or the first defect of it: of the node list, of the requests, and then
of the nodes one by one. -/
def build (entries : List (Option Node)) (requested : List Id) : Except Fault Graph := do
  let nodes ← collect 0 [] entries
  if requested.isEmpty then .error Defect.noRequestedFiles
  requested.forM (checkRequested nodes)
  nodes.forM (Node.check nodes)
  .ok ⟨nodes, requested⟩

/-- The node that `source` names as a scope. -/
def lookup (graph : Graph) (source id : Id) : Except Fault Node :=
  match graph.node? id with
  | some node => .ok node
  | none => .error (Cause.unresolvedReference source id "scope")

/-- Follows scopes from a node to a file, at most `bound` of them. -/
def fileFrom (graph : Graph) (start : Id) : Nat → Node → Except Fault Node
  | 0, node =>
      if node.kind == .file then .ok node else .error (Defect.endlessScope start)
  | bound + 1, node =>
      if node.kind == .file then .ok node
      else do
        let scope ← graph.lookup node.id node.scope
        graph.fileFrom start bound scope

def file (graph : Graph) (id : Id) : Except Fault Node := do
  let node ← graph.lookup id id
  graph.fileFrom id (graph.size + 1) node

/-- The scopes around a node that are no files, the innermost first. -/
def scopesFrom (graph : Graph) (start : Id) : Nat → Node → Except Fault (List Node)
  | 0, node =>
      if node.kind == .file then .ok [] else .error (Defect.endlessScope start)
  | bound + 1, node =>
      if node.kind == .file then .ok []
      else do
        let scope ← graph.lookup node.id node.scope
        let outer ← graph.scopesFrom start bound scope
        .ok (if scope.kind == .file then outer else scope :: outer)

/-- The scopes around a node that are no files, the outermost first. -/
def ancestors (graph : Graph) (id : Id) : Except Fault (List Node) := do
  let node ← graph.lookup id id
  let scopes ← graph.scopesFrom id (graph.size + 1) node
  .ok scopes.reverse

/-- The field of the enclosing struct that a group is the body of. -/
def groupField? (graph : Graph) (id : Id) : Option Field := do
  let node ← graph.node? id
  if !node.isGroup then none
  let parent ← graph.node? node.scope
  parent.fields.find? fun field => field.isGroup && field.group == id

def isAnonymousGroup (graph : Graph) (node : Node) : Bool :=
  node.isGroup && (graph.groupField? node.id).any Field.isAnonymous

end Graph

end SchemaStubs
