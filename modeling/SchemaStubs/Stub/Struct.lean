import SchemaStubs.Stub.Literal
import SchemaStubs.Stub.Member
import SchemaStubs.Text.DocComment

/-!
The class of a struct. It holds the nested declarations, the bodies of named groups, the three views
of a message (a dictionary, a reader and a builder), and the functions that make messages. The class
of a group has the views only.
-/

namespace SchemaStubs.Stub

def className (internal : String) : String :=
  Text.afterLast '.' internal

namespace Struct

def which (node : Node) : List Declaration :=
  if node.hasUnion then
    [.method { name := "which", returns := literal (node.unionFields.map Field.name) }]
  else []

def dictView (plan : Plan) (members : List Member) : Step Draft Declaration := do
  let body ← members.mapM fun member => do
    let type ← member.type plan .dict
    pure (Declaration.annotated member.name type)
  pure (.class "Dict" ["TypedDict", "total=False"] [] body)

def readerView (plan : Plan) (node : Node) (internal : String) (members : List Member) :
    Step Draft Declaration := do
  let properties ← members.mapM fun member => do
    let type ← member.type plan .reader
    pure (Declaration.method (.property member.name type (Text.docLines member.field.doc)))
  pure (.class "Reader" ["_DynamicStructReader"] [] (properties ++ which node ++
    [.method { name := "as_builder", returns := internal ++ ".Builder" },
      .method { name := "to_dict", returns := internal ++ ".Dict" }]))

/-- The getter of a member and, unless it is a group, its setter. -/
def accessors (plan : Plan) (member : Member) : Step Draft (List Declaration) := do
  let type ← member.type plan .builder
  let getter := Declaration.method (.property member.name type [])
  match member.group with
  | some _ => pure [getter]
  | none => do
      let assigned ← member.type plan .setter
      pure [getter, .method (.setter member.name assigned)]

def initializesStruct (member : Member) : Bool :=
  member.group.isSome || member.field.type.any fun type => type.kind == .struct

def initializesList (member : Member) : Bool :=
  member.group.isNone && member.field.type.any fun type => type.kind == .list

/-- The typed initializer of a struct, group or list; other members have none. -/
def initializer (plan : Plan) (member : Member) : Step Draft (List (String × Signature)) := do
  let selector : Param := { name := "field", type := literal [member.field.name] }
  if initializesStruct member then do
    let type ← member.type plan .builder
    pure [(member.field.name, { name := "init", params := [selector], returns := type })]
  else if initializesList member then do
    let type ← member.type plan .builder
    let size : Param := { name := "size", type := "int" }
    pure [(member.field.name, { name := "init", params := [selector, size], returns := type })]
  else pure []

def fallbackInitializer : Signature where
  name := "init"
  params := [{ name := "field", type := "str" },
    { name := "size", type := "int | None", default := "None" }]
  returns := "Any"

/-- The initializers by field name, and then the one that takes any name. -/
def initializers (plan : Plan) (members : List Member) : Step Draft (List Declaration) := do
  let typed ← members.mapM (initializer plan)
  let ordered := sortBy (fun first second => Text.precedes first.1 second.1) typed.flatten
  pure ((Signature.overloads (ordered.map Prod.snd) fallbackInitializer).map Declaration.method)

def builderView (plan : Plan) (node : Node) (internal : String) (members : List Member) :
    Step Draft Declaration := do
  let properties ← members.mapM (accessors plan)
  let initializers ← initializers plan members
  let toBytes := if node.isGroup then [] else
    [Declaration.method { name := "to_bytes", returns := "bytes" }]
  pure (.class "Builder" ["_DynamicStructBuilder"] [] (properties.flatten ++ which node ++
    initializers ++
    [.method { name := "as_reader", returns := internal ++ ".Reader" },
      .method { name := "to_dict", returns := internal ++ ".Dict" }] ++ toBytes))

/-- Makes a message; every member may be given by keyword. -/
def newMessage (plan : Plan) (internal : String) (members : List Member) :
    Step Draft Declaration := do
  let keywords ← members.mapM fun member => do
    let type ← member.type plan .setter
    pure ({ name := member.name, type := optional type, default := "None" } : Param)
  let marker : List Param := if members.isEmpty then [] else [{ name := "*" }]
  pure (.method {
    name := "new_message"
    params := marker ++ keywords ++ [{ name := "**kwargs", type := "Any" }]
    returns := internal ++ ".Builder" })

def limits : List Param :=
  [{ name := "traversal_limit_in_words", type := "int | None", default := "None" },
    { name := "nesting_limit", type := "int | None", default := "None" }]

def fromBytes (internal : String) : Declaration :=
  .method {
    name := "from_bytes"
    params := { name := "buf", type := "bytes" } :: limits
    returns := "AbstractContextManager[" ++ internal ++ ".Reader]" }

def readFile (internal : String) : Declaration :=
  .method {
    name := "read"
    params := { name := "file", type := "BinaryIO" } :: limits
    returns := internal ++ ".Reader" }

def views (plan : Plan) (node : Node) (internal : String) (members : List Member) :
    Step Draft (List Declaration) := do
  let dict ← dictView plan members
  let reader ← readerView plan node internal members
  let builder ← builderView plan node internal members
  pure [dict, reader, builder]

/-- The class of a struct or of a named group; `nested` declares what stands inside a node and
`body` the body of a group. -/
def declare (plan : Plan) (nested : Node → Step Draft (List Declaration))
    (body : Node → Step Draft (List Declaration)) (node : Node) : Step Draft Declaration := do
  let internal ← Draft.internalOf node
  Draft.inRegistry (Registry.markDeclared node.id)
  let members ← Step.ofExcept (Member.ofNode plan.graph node)
  let inner ← if node.isGroup then pure [] else nested node
  let groups ← (members.filterMap Member.group).mapM body
  let views ← views plan node internal members
  let doc := Text.docLines node.doc
  if node.isGroup then
    pure (.class (className internal) [] doc (inner ++ groups.flatten ++ views))
  else do
    let newMessage ← newMessage plan internal members
    pure (.class (className internal) ["_StructModule"] doc
      (inner ++ groups.flatten ++ views ++ [newMessage, fromBytes internal, readFile internal]))

end Struct

end SchemaStubs.Stub
