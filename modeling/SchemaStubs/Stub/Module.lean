import SchemaStubs.Stub.AnyPointer
import SchemaStubs.Stub.Interface

/-!
The declarations of a stub: what each node of a file becomes, and the nodes of the file in the order
the walk met them.
-/

namespace SchemaStubs.Stub

/-- The class of an enum: the type of its values, which are strings, and a number for each. -/
def Enum.declare (node : Node) : Step Draft Declaration := do
  if node.enumerants.isEmpty then
    Step.fail (Cause.unsupportedNode node.id node.kind.text "enum without enumerants")
  else do
    let internal ← Draft.internalOf node
    Draft.inRegistry (Registry.markDeclared node.id)
    pure (.class (className internal) ["_EnumModule"] (Text.docLines node.doc)
      (.typeAlias "Value" (literal node.enumerants) ::
        node.enumerants.map fun name => .annotated (safeName name) "int"))

def constant (plan : Plan) (node : Node) : Step Draft Declaration := do
  let type ← Draft.typeText plan .reader node.constType
  pure (.annotated (safeName node.name) type)

/-- The declarations inside a node, without the groups: these stand with the fields they are the
bodies of. -/
def nestedDeclarations (plan : Plan) (declare : Node → Step Draft (List Declaration))
    (node : Node) : Step Draft (List Declaration) := do
  let inner ← node.nested.mapM fun id =>
    match plan.graph.node? id with
    | none => Step.fail (Cause.unresolvedReference node.id id "nested")
    | some nested => if nested.isGroup then pure [] else declare nested
  pure inner.flatten

/-- The declaration of a node that is no group. Annotations become nothing. -/
def declareKind (plan : Plan) (nested body : Node → Step Draft (List Declaration)) (node : Node) :
    Step Draft (List Declaration) := do
  Draft.note (.nodeDrafted node.id node.kind node.name)
  match node.kind with
  | .struct => do
      let declaration ← Struct.declare plan nested body node
      pure [declaration]
  | .enum => do
      let declaration ← Enum.declare node
      pure [declaration]
  | .interface => do
      let declaration ← Interface.declare plan nested node
      pure [declaration]
  | .const => do
      let declaration ← constant plan node
      pure [declaration]
  | .annotationDecl => pure []
  | .file | .unknown _ =>
      Step.fail (Cause.unsupportedNode node.id node.kind.text "no declaration shape")

/-- What a node or the body of a group becomes; `bound` limits how deep declarations nest. -/
def declareFrom (plan : Plan) : Nat → Node → Step Draft (List Declaration)
  | 0, node => Step.fail (Defect.endlessScope node.id)
  | bound + 1, node => do
      let inner := declareFrom plan bound
      if node.isGroup then do
        let declaration ← Struct.declare plan (nestedDeclarations plan inner) inner node
        pure [declaration]
      else declareKind plan (nestedDeclarations plan inner) inner node

/-- What a node at the top level of a file becomes. A group has no place there. -/
def declareNode (plan : Plan) (node : Node) : Step Draft (List Declaration) := do
  if node.isGroup then do
    Draft.note (.nodeDrafted node.id node.kind node.name)
    Step.fail (Cause.unsupportedNode node.id node.kind.text "group declared outside a group field")
  else declareFrom plan (plan.graph.size + 1) node

/-- Binds the names of a declaration at the top level. A class is followed by the name the module
has for it. -/
def bindTopLevel (node : Node) (declaration : Declaration) : Step Draft (List Declaration) := do
  match declaration with
  | .annotated name _ => do
      Draft.bind name node.id
      pure [declaration]
  | .class name _ _ _ => do
      Draft.bind name node.id
      Draft.bind (safeName node.name) node.id
      pure [declaration, .annotated (safeName node.name) name]
  | _ => pure [declaration]

def declareTopLevel (plan : Plan) (node : Node) : Step Draft (List Declaration) := do
  let declarations ← declareNode plan node
  let bound ← declarations.mapM (bindTopLevel node)
  pure bound.flatten

def topLevelNodes (plan : Plan) (file : Id) : List Node :=
  plan.nodes.filter fun node => node.kind != .file && node.scope == file

/-- All declarations of a stub; the class for pointers to anything comes last and only if some type
mentions it. -/
def declareFile (plan : Plan) : Step Draft (List Declaration) := do
  let draft ← get
  let blocks ← (topLevelNodes plan draft.file.id).mapM (declareTopLevel plan)
  let reached ← get
  if reached.usesAnyPointer then do
    Draft.bind anyPointerClass draft.file.id
    let anyPointer ← AnyPointer.declare plan
    pure (blocks.flatten ++ [anyPointer])
  else pure blocks.flatten

end SchemaStubs.Stub
