import SchemaStubs.Stub.Struct

/-!
The class for pointers to anything. It can be cast to every struct and interface of its file; the
casts are listed by public alias, and one that takes anything comes last.
-/

namespace SchemaStubs.Stub.AnyPointer

structure Target where
  aliasName : String
  internal : String
  isInterface : Bool
  deriving DecidableEq, Repr

/-- The role by which a cast target is listed. Groups and other kinds are no targets. -/
def castRole? (node : Node) : Option Role :=
  if node.kind = .struct ∧ !node.isGroup then some .reader
  else if node.kind = .interface then some .client
  else none

def isDeclaredIn (graph : Graph) (id file : Id) : Bool :=
  match graph.file id with
  | .ok declaring => declaring.id = file
  | .error _ => false

def target (plan : Plan) (node : Node) : Step Draft (List Target) := do
  let draft ← get
  match castRole? node with
  | none => pure []
  | some role =>
      if !isDeclaredIn plan.graph node.id draft.file.id then pure []
      else do
        let internal ← Draft.internalOf node
        let aliasName ← Draft.inRegistry (Registry.getAlias { node := node.id } role)
        pure [{ aliasName, internal, isInterface := node.kind = .interface }]

def targets (plan : Plan) : Step Draft (List Target) := do
  let found ← plan.nodes.mapM (target plan)
  pure (sortBy (fun first second => Text.precedes first.aliasName second.aliasName) found.flatten)

def casts (name view : String) (targets : List Target) : List Declaration :=
  (Signature.overloads
    (targets.map fun target =>
      { name
        params := [{ name := "schema", type := target.internal }]
        returns := target.internal ++ view })
    { name, params := [{ name := "schema", type := "Any" }], returns := "Any" }).map
    Declaration.method

def declare (plan : Plan) : Step Draft Declaration := do
  let targets ← targets plan
  pure (.class anyPointerClass ["_DynamicObjectReader"] []
    (casts "as_struct" ".Reader" (targets.filter fun target => !target.isInterface) ++
      casts "as_interface" ".Client" (targets.filter Target.isInterface) ++
      [.method {
          name := "as_list"
          params := [{ name := "schema", type := "Any" }]
          returns := "Sequence[Any]" },
        .method { name := "as_text", returns := "str" }]))

end SchemaStubs.Stub.AnyPointer
