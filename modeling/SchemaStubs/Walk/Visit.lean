import SchemaStubs.Walk.Basic

/-!
Walking a schema from its roots, depth first. Every node reached is registered once, and every
dependency of it is followed, whatever circles the references make: a node is marked before its
dependencies are followed, so each step down meets a new node.
-/

namespace SchemaStubs.Walk

def locate (graph : Graph) (node : Node) : Step Walk Reference := do
  let walk ← get
  let file ← Step.ofExcept (graph.file node.id)
  pure {
    target := node.id
    kind := node.kind
    file := file.id
    internal := (walk.registry.internal? node.id).getD "" }

/-- Fills in the reference that waits for a node, if one does. -/
def settle (graph : Graph) (node : Node) : Step Walk Unit := do
  let walk ← get
  if node.id ∈ walk.awaited then do
    set { walk with awaited := walk.awaited.filter fun id => id != node.id }
    let reference ← locate graph node
    setReference reference
    note (.referencesPatched node.id 1)
  else pure ()

/-- Leaves a reference to a node under way pending. -/
def postpone (source : Id) (via : Via) (target : Node) (reference : Reference) :
    Step Walk Unit := do
  note (.referenceDeferred source target.id via.text)
  if reference.pending then pure ()
  else do
    setReference { reference with pending := true }
    modify fun walk => { walk with awaited := walk.awaited ++ [target.id] }

/-- The node a dependency names, which has to exist and to be of the wanted kind. -/
def targetOf (graph : Graph) (source : Id) (dependency : Dependency) : Except Fault Node :=
  match graph.node? dependency.target with
  | none => .error (Cause.unresolvedReference source dependency.target dependency.via.text)
  | some target =>
      match dependency.wanted with
      | none => .ok target
      | some wanted =>
          if target.kind = wanted then .ok target
          else
            .error (Defect.wrongTargetKind source target.id wanted dependency.via.text target.kind)

/-- Gives a target that has none a reference, as yet without a file. -/
def mention (target : Node) : Step Walk Unit := do
  let walk ← get
  if (walk.reference? target.id).isNone then
    setReference { target := target.id, kind := target.kind }

/-- Brings the reference to a target that was visited up to date. -/
def refresh (graph : Graph) (source : Id) (via : Via) (target : Node) : Step Walk Unit := do
  let walk ← get
  let reference := (walk.reference? target.id).getD { target := target.id, kind := target.kind }
  match walk.progressOf target.id with
  | .complete =>
      if reference.file = 0 then do
        let located ← locate graph target
        setReference located
  | .underWay => postpone source via target reference
  | .unseen => pure ()

def recordEdge (edge : Edge) : Step Walk Unit :=
  modify fun walk => { walk with edges := walk.edges ++ [edge] }

/-- Follows one dependency: visits its target, brings the reference up to date and records the
edge. -/
def follow (graph : Graph) (visit : Id → Step Walk Unit) (source : Id) (dependency : Dependency) :
    Step Walk Unit := do
  let target ← Step.ofExcept (targetOf graph source dependency)
  mention target
  visit target.id
  refresh graph source dependency.via target
  recordEdge ⟨source, dependency.via, target.id⟩

/-- Starts the visit of a node: it is under way, has its place in the order and is registered. -/
def enter (graph : Graph) (id : Id) : Step Walk Unit := do
  setProgress id .underWay
  modify fun walk => { walk with order := walk.order ++ [id] }
  let _ ← inRegistry (Registry.register graph id)

def leave (graph : Graph) (node : Node) : Step Walk Unit := do
  setProgress node.id .complete
  settle graph node

/-- Visits a node that is unseen, and with `visit` the nodes it depends on. -/
def visitWith (graph : Graph) (visit : Id → Step Walk Unit) (id : Id) : Step Walk Unit := do
  let walk ← get
  if walk.progressOf id ≠ .unseen then pure ()
  else match graph.node? id with
    | none => Step.fail (Cause.unresolvedReference id id "visit")
    | some node => do
        enter graph id
        node.dependencies.forM (follow graph visit id)
        leave graph node

/-- Visits a node, and through it all it leads to; `bound` limits how deep. -/
def visitFrom (graph : Graph) : Nat → Id → Step Walk Unit
  | 0, _ => pure ()
  | bound + 1, id => visitWith graph (visitFrom graph bound) id

/-- Visits a node. Each node under way is a different one, so the size of the graph bounds the
depth. -/
def visit (graph : Graph) (id : Id) : Step Walk Unit :=
  visitFrom graph (graph.size + 1) id

def visitRoot (graph : Graph) (root : Id) : Step Walk Unit :=
  match graph.node? root with
  | none => Step.fail (Cause.unresolvedReference root root "root")
  | some _ => visit graph root

/-- Walks from the roots in order. At the end no reference is pending. -/
def run (graph : Graph) (roots : List Id) : Step Walk Unit := do
  roots.forM (visitRoot graph)
  let walk ← get
  match walk.pendingTargets with
  | [] => note (.walkCompleted walk.order.length walk.edges.length)
  | targets => Step.fail (Cause.pendingReference targets)

end SchemaStubs.Walk
