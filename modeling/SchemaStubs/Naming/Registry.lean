import SchemaStubs.Journal.Event
import SchemaStubs.Naming.Alias
import SchemaStubs.Schema.Graph
import SchemaStubs.Schema.Node
import SchemaStubs.Step
import SchemaStubs.Table
import SchemaStubs.Text.Casing

/-!
The registry of a run: the internal identifier of every node met, which is the path of classes it
is declared under, and the names each file gives away. The class of a node is named by the node, with
a mark of its kind. The registry is the one value that every part of a run passes on, so the journal
of the run is kept here too.
-/

namespace SchemaStubs

/-- The class name of a module node; `groupName` is the name of its group field, if it is a group
and has one. -/
def Node.segment (node : Node) (groupName : String) : String :=
  if node.isGroup then
    "_" ++ Text.pascal (if groupName == "" then node.name else groupName) ++ "GroupModule"
  else match node.kind with
    | .enum => "_" ++ node.name ++ "EnumModule"
    | .interface => "_" ++ node.name ++ "InterfaceModule"
    | _ => "_" ++ node.name ++ "StructModule"

structure Registry where
  /-- The identifiers of the nodes registered so far. -/
  internal : Table Id String := {}
  /-- Who owns a class name inside a scope. -/
  segments : Table (Id × String) Id := {}
  /-- The nodes that generated code refers to. -/
  referenced : List Id := []
  /-- The nodes whose class was declared. -/
  declared : List Id := []
  requests : List Request := []
  /-- Names of a file that no alias may take, with the node that holds them. -/
  reserved : Table (Id × String) Id := {}
  resolved : Bool := false
  /-- The aliases in the order they were assigned. -/
  aliases : List Alias := []
  journal : List Journal.Event := []
  deriving Inhabited

namespace Registry

def note (event : Journal.Event) : Step Registry Unit :=
  modify fun registry => { registry with journal := registry.journal ++ [event] }

def internal? (registry : Registry) (id : Id) : Option String :=
  registry.internal.get? id

def isKnown (registry : Registry) (id : Id) : Bool :=
  registry.internal.contains id

def record (node : Node) (internal : String) : Step Registry String := do
  modify fun registry => { registry with internal := registry.internal.set node.id internal }
  note (.nodeRegistered node.id node.kind internal)
  pure internal

/-- Takes a class name in the scope of a node; two nodes of one scope cannot share it. -/
def claimSegment (node : Node) (segment : String) : Step Registry Unit := do
  let registry ← get
  match registry.segments.get? (node.scope, segment) with
  | some owner =>
      if owner = node.id then pure ()
      else Step.fail (Cause.nameCollision segment owner node.id)
  | none =>
      set { registry with segments := registry.segments.set (node.scope, segment) node.id }

def groupName (graph : Graph) (node : Node) : String :=
  ((graph.groupField? node.id).map Field.name).getD ""

def qualify (parent segment : String) : String :=
  if parent == "" then segment else parent ++ "." ++ segment

/-- Registers a node and, first, the scopes it needs; `bound` limits how many. -/
def registerFrom (graph : Graph) : Nat → Id → Step Registry String
  | 0, id => Step.fail (Defect.endlessScope id)
  | bound + 1, id => do
      let registry ← get
      match registry.internal? id with
      | some internal => pure internal
      | none =>
          match graph.node? id with
          | none => Step.fail (Cause.unresolvedReference id id "register")
          | some node =>
              if !node.kind.hasModule then record node ""
              else if graph.isAnonymousGroup node then do
                let parent ← registerFrom graph bound node.scope
                record node parent
              else do
                let segment := node.segment (groupName graph node)
                claimSegment node segment
                match graph.node? node.scope with
                | none => Step.fail (Cause.unresolvedReference node.id node.scope "scope")
                | some scope =>
                    if scope.kind == .file then record node segment
                    else do
                      let parent ← registerFrom graph bound scope.id
                      record node (qualify parent segment)

/-- The identifier of a node. Files, constants and annotations have none; an anonymous group is
flattened into its parent and shares its identifier. Registering again changes nothing. -/
def register (graph : Graph) (id : Id) : Step Registry String :=
  registerFrom graph (graph.size + 1) id

def markReferenced (id : Id) : Step Registry Unit :=
  modify fun registry =>
    { registry with referenced := if id ∈ registry.referenced then registry.referenced
                                  else registry.referenced ++ [id] }

def markDeclared (id : Id) : Step Registry Unit :=
  modify fun registry =>
    { registry with declared := if id ∈ registry.declared then registry.declared
                                else registry.declared ++ [id] }

def undeclared (registry : Registry) : List Id :=
  sortBy (fun first second => first ≤ second)
    (registry.referenced.filter fun id => id ∉ registry.declared)

end Registry

end SchemaStubs
