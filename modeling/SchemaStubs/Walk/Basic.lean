import SchemaStubs.Naming.Registry
import SchemaStubs.Walk.Dependency

/-!
The state of a walk over a schema: how far every node has come, the order in which nodes were met,
the edges followed, and one reference per target. A reference to a node whose walk is still under
way is pending; it is filled in when that node is complete.
-/

namespace SchemaStubs

inductive Progress where
  | unseen
  | underWay
  | complete
  deriving DecidableEq, Repr, Inhabited

def Progress.text : Progress → String
  | unseen => "unseen"
  | underWay => "in-progress"
  | complete => "complete"

/-- What generated code needs to know about a node it refers to. -/
structure Reference where
  target : Id
  kind : NodeKind
  /-- The file that declares the target; zero until it is known. -/
  file : Id := 0
  internal : String := ""
  pending : Bool := false
  deriving DecidableEq, Repr, Inhabited

/-- A dependency that was followed. Its reference is the one that the walk holds for its target, shared
with all other edges to this target, so the edge does not hold it again. -/
structure Edge where
  source : Id
  via : Via
  target : Id
  deriving DecidableEq, Repr

structure Walk where
  registry : Registry := {}
  progress : Table Id Progress := {}
  /-- The nodes met, in the order they were met. -/
  order : List Id := []
  edges : List Edge := []
  references : Table Id Reference := {}
  /-- The nodes under way that a pending reference waits for. -/
  awaited : List Id := []
  deriving Inhabited

namespace Walk

def progressOf (walk : Walk) (id : Id) : Progress :=
  (walk.progress.get? id).getD .unseen

def reference? (walk : Walk) (id : Id) : Option Reference :=
  walk.references.get? id

def isPending (walk : Walk) (id : Id) : Bool :=
  (walk.reference? id).any Reference.pending

/-- The targets of the edges that are still pending, one for each edge. -/
def pendingTargets (walk : Walk) : List Id :=
  (walk.edges.map Edge.target).filter walk.isPending

def inRegistry {α : Type} (step : Step Registry α) : Step Walk α :=
  step.onPart Walk.registry fun registry walk => { walk with registry }

def note (event : Journal.Event) : Step Walk Unit :=
  inRegistry (Registry.note event)

def setProgress (id : Id) (progress : Progress) : Step Walk Unit :=
  modify fun walk => { walk with progress := walk.progress.set id progress }

def setReference (reference : Reference) : Step Walk Unit :=
  modify fun walk => { walk with references := walk.references.set reference.target reference }

end Walk

end SchemaStubs
