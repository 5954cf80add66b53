import SchemaStubs.Schema.Node

/-!
What a node depends on: the nodes its declaration mentions, in the order it mentions them, with the
way each is mentioned and the kind it has to be of.
-/

namespace SchemaStubs

inductive Via where
  | nested
  | field
  | group
  | brand
  | superclass
  | param
  | result
  | const
  deriving DecidableEq, Repr

def Via.text : Via → String
  | nested => "nested"
  | field => "field"
  | group => "group"
  | brand => "brand"
  | superclass => "superclass"
  | param => "param"
  | result => "result"
  | const => "const"

structure Dependency where
  via : Via
  target : Id
  /-- The kind the target has to be of; a nested declaration may be of any. -/
  wanted : Option NodeKind := none
  deriving DecidableEq, Repr

mutual

/-- The node a type refers to and those of its brand; a list stands for its element. -/
def SchemaType.dependencies (via : Via) : SchemaType → List Dependency
  | ⟨kind, element, target, brand, _, _⟩ =>
      match kind with
      | .list =>
          match element with
          | none => []
          | some element => element.dependencies via
      | _ =>
          match kind.target? with
          | none => []
          | some wanted => ⟨via, target, some wanted⟩ :: brandDependencies brand

def brandDependencies : List SchemaType → List Dependency
  | [] => []
  | type :: rest => type.dependencies .brand ++ brandDependencies rest

end

namespace Field

def typeDependencies (via : Via) (field : Field) : List Dependency :=
  match field.type with
  | none => []
  | some type => type.dependencies via

/-- A group field depends on its body, any other on its type. -/
def dependencies (field : Field) : List Dependency :=
  if field.isGroup then [⟨.group, field.group, some .struct⟩] else field.typeDependencies .field

end Field

def Method.dependencies (method : Method) : List Dependency :=
  method.params.flatMap (Field.typeDependencies .param) ++
    method.results.flatMap (Field.typeDependencies .result)

namespace Node

/-- What the members of a node depend on. Only the members that its kind gives a meaning to
count. -/
def memberDependencies (node : Node) : List Dependency :=
  match node.kind with
  | .struct => node.fields.flatMap Field.dependencies
  | .interface =>
      node.superclasses.map (fun target => ⟨.superclass, target, some .interface⟩) ++
        node.methods.flatMap Method.dependencies
  | .const =>
      match node.constType with
      | none => []
      | some type => type.dependencies .const
  | _ => []

/-- Everything a node depends on: its nested declarations, then what its members mention. -/
def dependencies (node : Node) : List Dependency :=
  node.nested.map (fun target => ⟨.nested, target, none⟩) ++ node.memberDependencies

end Node

end SchemaStubs
