import SchemaStubs.Stub.Literal
import SchemaStubs.Stub.TypeText

/-!
The members of a struct as its views show them: its slots and its named groups in order, with the
members of anonymous groups in the place of these.
-/

namespace SchemaStubs.Stub

structure Member where
  field : Field
  /-- The struct or group that declares the field. -/
  owner : Node
  /-- The body of a named group. -/
  group : Option Node := none
  deriving Repr, Inhabited

namespace Member

def name (member : Member) : String :=
  safeName member.field.name

/-- No two members share a name; `seen` holds the names met before with their owners. -/
def checkNames : List (String × Id) → List Member → Except Fault Unit
  | _, [] => .ok ()
  | seen, member :: rest =>
      match seen.lookup member.field.name with
      | some owner => .error (Cause.nameCollision member.field.name owner member.owner.id)
      | none => checkNames ((member.field.name, member.owner.id) :: seen) rest

/-- The members one field stands for; `inner` gives those of an anonymous group. -/
def ofField (graph : Graph) (inner : Node → Except Fault (List Member)) (owner : Node)
    (field : Field) : Except Fault (List Member) :=
  if !field.isGroup then .ok [{ field, owner }]
  else match graph.node? field.group with
    | none => .error (Cause.unresolvedReference owner.id field.group "group")
    | some body =>
        if !field.isAnonymous then .ok [{ field, owner, group := some body }]
        else if body.hasUnion || 0 < field.ordinal then
          .error (Cause.unsupportedNode body.id body.kind.text "anonymous group with a union")
        else inner body

def ofNodeFrom (graph : Graph) : Nat → Node → Except Fault (List Member)
  | 0, node => .error (Defect.endlessGroup node.id)
  | bound + 1, node => do
      let members ← node.fields.mapM (ofField graph (ofNodeFrom graph bound) node)
      checkNames [] members.flatten
      .ok members.flatten

/-- The members of a struct or group. Anonymous groups nest at most as deep as there are nodes. -/
def ofNode (graph : Graph) (node : Node) : Except Fault (List Member) :=
  ofNodeFrom graph (graph.size + 1) node

def type (plan : Plan) (view : View) (member : Member) : Step Draft String :=
  match member.group with
  | none => Draft.typeText plan view member.field.type
  | some body => do
      let internal ← Draft.internalOf body
      pure (view.groupType internal)

end Member

end SchemaStubs.Stub
