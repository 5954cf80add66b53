import SchemaStubs.Naming.Resolution
import SchemaStubs.Stub.Import
import SchemaStubs.Stub.Location
import SchemaStubs.Walk.Basic

/-!
Drafting a stub. What the walk of a schema found is fixed in a plan; the draft of one stub grows
while the nodes of its file are declared: it collects imports, the names it binds, and the marks it
leaves in the registry.
-/

namespace SchemaStubs.Stub

/-- What is known before the first stub is drafted. -/
structure Plan where
  graph : Graph
  options : Options
  /-- The nodes of the schema in the order the walk met them. -/
  order : List Id
  references : Table Id Reference
  deriving Inhabited

def Plan.nodes (plan : Plan) : List Node :=
  plan.order.filterMap plan.graph.node?

structure Draft where
  registry : Registry
  /-- The schema file the stub belongs to. -/
  file : Node
  imports : List Import := []
  /-- The names that the aliases of each imported subject have in this stub. -/
  locals : Table Subject (List (Role × String)) := {}
  /-- Whether some type is written with the class for pointers to anything. -/
  usesAnyPointer : Bool := false
  bindings : Import.Bindings := {}
  deriving Inhabited

namespace Draft

def inRegistry {α : Type} (step : Step Registry α) : Step Draft α :=
  step.onPart Draft.registry fun registry draft => { draft with registry }

def note (event : Journal.Event) : Step Draft Unit :=
  inRegistry (Registry.note event)

def bind (name : String) (owner : Id) : Step Draft Unit := do
  let draft ← get
  let bindings ← Step.ofExcept (Import.bind name owner draft.bindings)
  set { draft with bindings }

def internalOf (node : Node) : Step Draft String := do
  let draft ← get
  match draft.registry.internal? node.id with
  | some internal =>
      if internal == "" then Step.fail (Cause.assertion s!"node {node.id} was never registered")
      else pure internal
  | none => Step.fail (Cause.assertion s!"node {node.id} was never registered")

end Draft

end SchemaStubs.Stub
