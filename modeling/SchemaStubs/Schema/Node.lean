import SchemaStubs.Id
import SchemaStubs.Schema.Kind
import SchemaStubs.Text.Join

/-!
Types, fields, methods and nodes of a schema, with the members a document gives them. References
between nodes are identifiers, so a schema may be cyclic and may span files.
-/

namespace SchemaStubs

/-- The type of a slot, a parameter or a constant. `element` belongs to lists, `target` and `brand`
to references to nodes, the last two members to references to generic parameters; a document may
set any of them on any kind, and the others ignore them. -/
structure SchemaType where
  kind : TypeKind
  element : Option SchemaType := none
  target : Id := 0
  brand : List SchemaType := []
  paramScope : Id := 0
  paramIndex : Int := 0
  deriving Repr, Inhabited

namespace SchemaType

def isReference (type : SchemaType) : Bool :=
  type.kind.target?.isSome

/-- Values of interface types are capabilities. -/
def isCapability (type : SchemaType) : Bool :=
  type.kind == .interface

end SchemaType

/-- A struct member, a method parameter or a method result. -/
structure Field where
  /-- Empty for an anonymous group. -/
  name : String := ""
  kind : FieldKind := .unset
  type : Option SchemaType := none
  /-- The node that holds the members of a group. -/
  group : Id := 0
  hasDefault : Bool := false
  /-- Zero outside the union of the struct, otherwise the place in it, counted from one. -/
  ordinal : Int := 0
  doc : String := ""
  deriving Repr, Inhabited

namespace Field

def isGroup (field : Field) : Bool :=
  field.kind == .group

def isAnonymous (field : Field) : Bool :=
  field.isGroup && field.name == ""

end Field

structure Method where
  name : String := ""
  params : List Field := []
  results : List Field := []
  doc : String := ""
  deriving Repr, Inhabited

def Method.returnsCapability (method : Method) : Bool :=
  method.results.any fun result => result.type.any SchemaType.isCapability

structure Node where
  id : Id := 0
  kind : NodeKind := .unknown ""
  /-- Marks a struct that is the body of a group field. -/
  isGroup : Bool := false
  /-- The local name; for a file, its path. -/
  name : String := ""
  /-- The qualified name, such as `addressbook.capnp:Person.PhoneNumber`. -/
  displayName : String := ""
  /-- The node that encloses this one; zero for a file. -/
  scope : Id := 0
  /-- The declarations inside this one, in order. -/
  nested : List Id := []
  fields : List Field := []
  /-- How many fields of a struct belong to its union. -/
  unionSize : Int := 0
  enumerants : List String := []
  methods : List Method := []
  superclasses : List Id := []
  parameters : List String := []
  constType : Option SchemaType := none
  doc : String := ""
  deriving Repr, Inhabited

namespace Node

def hasUnion (node : Node) : Bool :=
  decide (0 < node.unionSize)

/-- The field at a place of the union, counted from one. Of two fields at one place the later one
counts. -/
def unionField? (node : Node) (ordinal : Nat) : Option Field :=
  node.fields.reverse.find? fun field => field.ordinal == (ordinal : Int)

/-- The fields of the union by place; a place no field claims holds an empty field. -/
def unionFields (node : Node) : List Field :=
  (List.range node.unionSize.toNat).map fun index => (node.unionField? (index + 1)).getD {}

/-- The last segment of a display name: `addressbook.capnp:Person.PhoneNumber` gives
`PhoneNumber`. -/
def localName (displayName : String) : String :=
  Text.afterLast '.' (Text.afterLast ':' displayName)

/-- Fills the name from the display name, or the display name from the name. The name of a file is
its whole display name. -/
def withNames (node : Node) : Node :=
  let name :=
    if node.name == "" then
      if node.kind == .file then node.displayName else localName node.displayName
    else node.name
  { node with
    name
    displayName := if node.displayName == "" then name else node.displayName }

end Node

end SchemaStubs
