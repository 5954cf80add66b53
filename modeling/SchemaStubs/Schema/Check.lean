import SchemaStubs.Fault
import SchemaStubs.Schema.Node

/-!
The checks a node of a schema has to pass, given the nodes of its document. References from types
are not followed here: a missing target shows up when the schema is walked.
-/

namespace SchemaStubs

mutual

/-- A list has an element, a reference has a target and a well-formed brand, a parameter has a
scope; `owner` is the node that uses the type. -/
def SchemaType.check (owner : Id) : SchemaType → Except Fault Unit
  | ⟨kind, element, target, brand, paramScope, paramIndex⟩ =>
      match kind with
      | .unknown name => .error (Defect.unknownTypeKind owner name)
      | .list =>
          match element with
          | none => .error (Defect.listWithoutElement owner)
          | some element => element.check owner
      | .enum | .struct | .interface =>
          if target = 0 then .error (Defect.typeWithoutTarget owner kind)
          else checkBrand owner brand
      | .parameter =>
          if paramScope = 0 ∨ paramIndex < 0 then .error (Defect.parameterWithoutScope owner)
          else .ok ()
      | _ => .ok ()

def checkBrand (owner : Id) : List SchemaType → Except Fault Unit
  | [] => .ok ()
  | type :: rest => do
      type.check owner
      checkBrand owner rest

end

def findNode? (nodes : List Node) (id : Id) : Option Node :=
  nodes.find? fun node => node.id == id

namespace Node

/-- A field that is no group is named and typed; a group field points at a group. -/
def checkField (nodes : List Node) (node : Node) (field : Field) : Except Fault Unit :=
  match field.kind with
  | .slot | .unset =>
      if field.name == "" then .error (Defect.unnamedSlot node.id)
      else match field.type with
        | none => .error (Defect.fieldWithoutType node.displayName field.name)
        | some type => type.check node.id
  | .group =>
      match findNode? nodes field.group with
      | none => .error (Defect.groupMissing node.displayName field.name field.group)
      | some body =>
          if body.kind == .struct && body.isGroup then .ok ()
          else .error (Defect.notAGroup node.displayName field.name field.group)
  | .unknown kind => .error (Defect.unknownFieldKind node.displayName field.name kind)

/-- Checks the fields in order, given the ordinals met before, and returns all ordinals. -/
def checkFieldsFrom (nodes : List Node) (node : Node) :
    List Int → List Field → Except Fault (List Int)
  | seen, [] => .ok seen
  | seen, field :: rest => do
      checkField nodes node field
      if field.ordinal < 0 ∨ node.unionSize < field.ordinal then
        .error (Defect.ordinalOutOfRange node.displayName field.name field.ordinal node.unionSize)
      else if field.ordinal = 0 then checkFieldsFrom nodes node seen rest
      else if field.ordinal ∈ seen then
        .error (Defect.ordinalRepeated node.displayName field.ordinal)
      else checkFieldsFrom nodes node (field.ordinal :: seen) rest

/-- Every place of the union is claimed by one field, and a union has no single member. -/
def checkFields (nodes : List Node) (node : Node) : Except Fault Unit := do
  let ordinals ← checkFieldsFrom nodes node [] node.fields
  if 0 < node.unionSize ∧ (ordinals.length : Int) ≠ node.unionSize then
    .error (Defect.ordinalsMissing node.displayName node.unionSize ordinals.length)
  else if node.unionSize = 1 then .error (Defect.lonelyUnionMember node.displayName)
  else .ok ()

def checkEnumerants (node : Node) : Nat → List String → Except Fault Unit
  | _, [] => .ok ()
  | index, name :: rest =>
      if name == "" then .error (Defect.unnamedEnumerant node.id index)
      else checkEnumerants node (index + 1) rest

def checkParameter (node : Node) (method : Method) (field : Field) : Except Fault Unit :=
  match field.type with
  | none => .error (Defect.incompleteParameter node.displayName method.name)
  | some type =>
      if field.name == "" then .error (Defect.incompleteParameter node.displayName method.name)
      else type.check node.id

def checkMethod (node : Node) (method : Method) : Except Fault Unit :=
  if method.name == "" then .error (Defect.unnamedMethod node.id)
  else (method.params ++ method.results).forM (checkParameter node method)

/-- The scope of a file is nothing; any other node stands in a file, a struct or an interface. -/
def checkScope (nodes : List Node) (node : Node) : Except Fault Unit :=
  if node.kind == .file then
    if node.scope = 0 then .ok () else .error (Defect.scopedFile node.id)
  else match findNode? nodes node.scope with
    | none => .error (Defect.missingScope node.id node.displayName node.scope)
    | some scope =>
        match scope.kind with
        | .const | .enum | .annotationDecl =>
            .error (Defect.scopeHoldsNothing node.id scope.kind scope.id)
        | _ => .ok ()

def checkNested (nodes : List Node) (node : Node) (nested : Id) : Except Fault Unit :=
  match findNode? nodes nested with
  | none => .error (Defect.nestedMissing node.id nested)
  | some child =>
      if child.scope = node.id then .ok ()
      else .error (Defect.nestedElsewhere nested node.id child.scope)

def checkMembers (nodes : List Node) (node : Node) : Except Fault Unit :=
  match node.kind with
  | .struct => checkFields nodes node
  | .enum => checkEnumerants node 0 node.enumerants
  | .interface => node.methods.forM (checkMethod node)
  | .const =>
      match node.constType with
      | none => .error (Defect.constWithoutType node.id)
      | some type => type.check node.id
  | _ => .ok ()

def check (nodes : List Node) (node : Node) : Except Fault Unit := do
  if !node.kind.isKnown then .error (Cause.unknownNodeKind node.id node.kind)
  if node.name == "" && !node.isGroup then .error (Defect.unnamedNode node.id)
  checkScope nodes node
  if node.isGroup && node.kind != .struct then
    .error (Defect.groupNotStruct node.id node.kind)
  node.nested.forM (checkNested nodes node)
  checkMembers nodes node

end Node

end SchemaStubs
