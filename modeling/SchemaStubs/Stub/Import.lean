import SchemaStubs.Fault
import SchemaStubs.Stub.Identifiers
import SchemaStubs.Stub.Layout
import SchemaStubs.Table

/-!
The imports of a stub. Names of the standard library and of the runtime are imported when the body
uses them; names of other stubs were recorded while the body was drafted. An import must not meet a
name that the stub declares itself.
-/

namespace SchemaStubs.Stub

/-- The names of the standard library a stub may use, with their modules. -/
def libraryNames : List (String × String) :=
  [("Awaitable", "collections.abc"), ("Sequence", "collections.abc"),
    ("AbstractContextManager", "contextlib"), ("Any", "typing"), ("BinaryIO", "typing"),
    ("Literal", "typing"), ("Protocol", "typing"), ("TypeAlias", "typing"),
    ("TypedDict", "typing"), ("overload", "typing")]

def libraryModule? (name : String) : Option String :=
  libraryNames.lookup name

/-- The module of the runtime, which has the base classes of a stub. -/
def runtimeModule : String :=
  "capnp.lib.capnp"

def runtimeNames : List String :=
  ["_DynamicCapabilityClient", "_DynamicCapabilityServer", "_DynamicObjectReader",
    "_DynamicStructBuilder", "_DynamicStructReader", "_EnumModule", "_InterfaceModule",
    "_StructModule"]

structure Import where
  fromModule : String
  name : String
  /-- The name it has in the importing stub. -/
  localName : String
  owner : Id
  deriving DecidableEq, Repr, Inhabited

namespace Import

def clause (entry : Import) : String :=
  if entry.localName == entry.name then entry.name else entry.name ++ " as " ++ entry.localName

def listedBefore (first second : Import) : Bool :=
  decide (first.fromModule < second.fromModule) ||
    (first.fromModule == second.fromModule && Text.precedes first.localName second.localName)

/-- Records an import. A name bound from the same module before is replaced. -/
def add (entry : Import) : List Import → List Import
  | [] => [entry]
  | other :: rest =>
      if other.fromModule = entry.fromModule ∧ other.localName = entry.localName then entry :: rest
      else other :: add entry rest

/-- The names a stub binds at its top level, each with the node it belongs to. -/
abbrev Bindings := Table String Id

/-- Binds a name; two nodes cannot share one. -/
def bind (name : String) (owner : Id) (bindings : Bindings) : Except Fault Bindings :=
  match bindings.get? name with
  | some other =>
      if other = owner then .ok bindings else .error (Cause.nameCollision name other owner)
  | none => .ok (bindings.set name owner)

def knownModule? (name : String) : Option String :=
  match libraryModule? name with
  | some fromModule => some fromModule
  | none => if name ∈ runtimeNames then some runtimeModule else none

/-- A name that the body imports is not bound by the stub itself. -/
def checkUsed (bindings : Bindings) (name : String) : Except Fault Unit :=
  match knownModule? name, bindings.get? name with
  | some fromModule, some owner => .error (Cause.shadowedImport name owner fromModule)
  | _, _ => .ok ()

/-- A name imported from a stub is neither bound by the importing stub, nor imported for another
node, nor one of the standard library. -/
def checkLocal (bindings : Bindings) (before : List Import) (entry : Import) : Except Fault Unit :=
  match bindings.get? entry.localName with
  | some owner => .error (Cause.nameCollision entry.localName owner entry.owner)
  | none =>
      match before.find? fun other =>
        other.localName == entry.localName && other.owner != entry.owner with
      | some other => .error (Cause.nameCollision entry.localName other.owner entry.owner)
      | none =>
          match libraryModule? entry.localName with
          | some fromModule =>
              .error (Cause.shadowedImport entry.localName entry.owner fromModule)
          | none => .ok ()

def checkLocals (bindings : Bindings) : List Import → List Import → Except Fault Unit
  | _, [] => .ok ()
  | before, entry :: rest => do
      checkLocal bindings before entry
      checkLocals bindings (entry :: before) rest

end Import

/-- The import statements of a stub: modules in order, each with its names in order. -/
structure ImportSection where
  library : List (String × List String)
  runtime : List String
  relative : List (String × List String)
  deriving DecidableEq, Repr, Inhabited

namespace ImportSection

def gather (names : List (String × String)) : List (String × List String) :=
  (Text.sorted (names.map Prod.fst).eraseDups).map fun fromModule =>
    (fromModule, Text.sorted ((names.filter fun entry => entry.1 == fromModule).map Prod.snd))

def collect (bindings : Import.Bindings) (imports : List Import) (body : String) :
    Except Fault ImportSection := do
  let used := identifiers body
  used.forM (Import.checkUsed bindings)
  Import.checkLocals bindings [] (sortBy Import.listedBefore imports)
  .ok {
    library := gather (used.filterMap fun name =>
      (libraryModule? name).map fun fromModule => (fromModule, name))
    runtime := Text.sorted (used.filter fun name => name ∈ runtimeNames)
    relative := gather (imports.map fun entry => (entry.fromModule, entry.clause)) }

def isEmpty (imports : ImportSection) : Bool :=
  imports.library.isEmpty && imports.runtime.isEmpty && imports.relative.isEmpty

def statement (entry : String × List String) : Line :=
  ⟨0, "from " ++ entry.1 ++ " import " ++ Text.joinWith ", " entry.2⟩

def runtimeStatement (names : List String) : List Line :=
  if names.isEmpty then []
  else
    ⟨0, "from " ++ runtimeModule ++ " import ("⟩ ::
      names.map (fun name => ⟨1, name ++ ","⟩) ++ [⟨0, ")"⟩]

def separated (groups : List (List Line)) : List Line :=
  ((groups.filter fun group => !group.isEmpty).intersperse [Line.blank]).flatten

def lines (imports : ImportSection) : List Line :=
  separated [imports.library.map statement, runtimeStatement imports.runtime,
    imports.relative.map statement]

end ImportSection

end SchemaStubs.Stub
