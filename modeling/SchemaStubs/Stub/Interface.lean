import SchemaStubs.Stub.Struct

/-!
The class of an interface: for each method the shapes of its parameters, its results and the context
of a call, then the client that calls the methods, the server that implements them, and the function
that turns a server into a client.
-/

namespace SchemaStubs.Stub.Interface

def superclass (plan : Plan) (node : Node) (id : Id) : Step Draft (String × String) := do
  let draft ← get
  let reference ← Draft.referenceTo plan node.id id "superclass"
  if reference.file = draft.file.id then do
    Draft.inRegistry (Registry.markReferenced id)
    pure (reference.internal ++ ".Client", reference.internal ++ ".Server")
  else do
    let file ← Draft.declaringFile plan node.id reference
    let names ← Draft.importAliases plan id file [.client, .server]
    pure (names.getD 0 "", names.getD 1 "")

def bases (plan : Plan) (node : Node) : Step Draft (List String × List String) := do
  if node.superclasses.isEmpty then
    pure (["_DynamicCapabilityClient"], ["_DynamicCapabilityServer"])
  else do
    let pairs ← node.superclasses.mapM (superclass plan node)
    pure (pairs.map Prod.fst, pairs.map Prod.snd)

/-- Parameters or results as the attributes of a protocol. -/
def protocol (plan : Plan) (name : String) (fields : List Field) : Step Draft Declaration := do
  let body ← fields.mapM fun field => do
    let type ← Draft.typeText plan .reader field.type
    pure (Declaration.annotated (safeName field.name) type)
  pure (.class name ["Protocol"] [] body)

def protocols (plan : Plan) (internal stem : String) (method : Method) :
    Step Draft (List Declaration) := do
  let params ← protocol plan (stem ++ "Params") method.params
  let results ← protocol plan (stem ++ "Result") method.results
  pure [params, results, .class (stem ++ "CallContext") ["Protocol"] []
    [.annotated "params" (internal ++ "." ++ stem ++ "Params"),
      .annotated "results" (internal ++ "." ++ stem ++ "Result")]]

/-- The method of the client: every parameter may be left out. -/
def clientMethod (plan : Plan) (internal stem : String) (method : Method) :
    Step Draft Declaration := do
  let params ← method.params.mapM fun field => do
    let type ← Draft.typeText plan .setter field.type
    pure ({ name := safeName field.name, type := optional type, default := "None" } : Param)
  pure (.method {
    name := safeName method.name
    params
    returns := "Awaitable[" ++ internal ++ "." ++ stem ++ "Result]"
    doc := Text.docLines method.doc })

/-- What a server method returns: nothing, the one result, or all of them. -/
def serverResult : List String → String
  | [] => "Awaitable[None]"
  | [result] => "Awaitable[" ++ optional result ++ "]"
  | results => "Awaitable[tuple[" ++ Text.joinWith ", " results ++ "] | None]"

/-- The two methods of the server: one gets the parameters, the other the context of the call. -/
def serverMethods (plan : Plan) (internal stem : String) (method : Method) :
    Step Draft (List Declaration) := do
  let context := internal ++ "." ++ stem ++ "CallContext"
  let params ← method.params.mapM fun field => do
    let type ← Draft.typeText plan .reader field.type
    pure ({ name := safeName field.name, type } : Param)
  let results ← method.results.mapM fun field => Draft.typeText plan .setter field.type
  pure [
    .method {
      name := safeName method.name
      params := params ++
        [{ name := "_context", type := context }, { name := "**kwargs", type := "Any" }]
      returns := serverResult results },
    .method {
      name := method.name ++ "_context"
      params := [{ name := "context", type := context }]
      returns := "Awaitable[None]" }]

/-- What one method adds to the class, to its client and to its server. -/
structure Surface where
  protocols : List Declaration
  client : Declaration
  server : List Declaration

def surface (plan : Plan) (internal : String) (method : Method) : Step Draft Surface := do
  let stem := Text.pascal method.name
  let protocols ← protocols plan internal stem method
  let client ← clientMethod plan internal stem method
  let server ← serverMethods plan internal stem method
  pure { protocols, client, server }

/-- The methods in order. Two methods cannot share the stem that their protocols are named by. -/
def surfaces (plan : Plan) (node : Node) (internal : String) :
    List String → List Method → Step Draft (List Surface)
  | _, [] => pure []
  | stems, method :: rest => do
      let stem := Text.pascal method.name
      if stem ∈ stems then Step.fail (Cause.nameCollision (stem ++ "Result") node.id node.id)
      else do
        let first ← surface plan internal method
        let others ← surfaces plan node internal (stem :: stems) rest
        pure (first :: others)

def newClient (internal : String) : Declaration :=
  .method {
    name := "_new_client"
    params := [{ name := "server", type := internal ++ ".Server" }]
    returns := internal ++ ".Client" }

def declare (plan : Plan) (nested : Node → Step Draft (List Declaration)) (node : Node) :
    Step Draft Declaration := do
  let internal ← Draft.internalOf node
  Draft.inRegistry (Registry.markDeclared node.id)
  let inner ← nested node
  let (clientBases, serverBases) ← bases plan node
  let surfaces ← surfaces plan node internal [] node.methods
  pure (.class (className internal) ["_InterfaceModule"] (Text.docLines node.doc)
    (inner ++ surfaces.flatMap Surface.protocols ++
      [.class "Client" clientBases [] (surfaces.map Surface.client),
        .class "Server" serverBases [] (surfaces.flatMap Surface.server), newClient internal]))

end SchemaStubs.Stub.Interface
