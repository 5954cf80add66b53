import SchemaStubs.Stub.Draft
import SchemaStubs.Stub.View

/-!
References to nodes of other files. Another stub is known only by its public aliases. The aliases of
one subject are imported under their own names if these are free in the importing stub, and
otherwise all of them with the same qualifier in front: the stem of the declaring file, then its
path, then its path and a number.
-/

namespace SchemaStubs.Stub

namespace View

def foreignRoles : TypeKind → View → List Role
  | .enum, _ => [.enum]
  | .interface, setter => [.client, .server]
  | .interface, dict => []
  | .interface, _ => [.client]
  | _, reader => [.reader]
  | _, builder => [.builder]
  | _, setter => [.reader, .builder]
  | _, dict => []

/-- What is admitted beside the aliases. -/
def foreignRest : TypeKind → View → List String
  | .enum, _ => []
  | .interface, dict => ["Any"]
  | .interface, _ => []
  | _, setter => ["dict[str, Any]"]
  | _, dict => ["dict[str, Any]"]
  | _, _ => []

end View

namespace Draft

/-- The names a stub binds to the aliases of subjects other than the given one. -/
def localNames (draft : Draft) (subject : Subject) : List String :=
  ((draft.locals.entries.filter fun entry => entry.1 != subject).flatMap Prod.snd).map Prod.snd

def takenNames (draft : Draft) (subject : Subject) : List String :=
  libraryNames.map Prod.fst ++ runtimeNames ++ draft.registry.namesIn draft.file.id ++
    draft.localNames subject

def qualified (qualifier : String) (aliases : List (Role × String)) : List (Role × String) :=
  aliases.map fun (role, name) => (role, qualifier ++ name)

/-- The qualifiers to try in turn, with so many numbered ones. -/
def qualifiers (file : String) (count : Nat) : List String :=
  ["", Location.fileQualifier file, Location.pathQualifier file] ++
    (List.range count).map fun index => Location.pathQualifier file ++ toString (index + 2)

def areFree (taken : List String) (names : List (Role × String)) : Bool :=
  names.all fun (_, name) => name ∉ taken

/-- The first qualifier under which all aliases are free. A taken name stands in the way of one
alias under at most one number, so the numbers tried are enough. -/
def freeQualifier (taken : List String) (file : String) (aliases : List (Role × String)) :
    String :=
  ((qualifiers file (aliases.length * taken.length + 1)).find? fun qualifier =>
    areFree taken (qualified qualifier aliases)).getD ""

/-- The names of the aliases of a subject in the stub, chosen when they are first needed. -/
def localsOf (subject : Subject) (file : String) (aliases : List (Role × String)) :
    Step Draft (List (Role × String)) := do
  let draft ← get
  match draft.locals.get? subject with
  | some names => pure names
  | none => do
      let names := qualified (freeQualifier (draft.takenNames subject) file aliases) aliases
      set { draft with locals := draft.locals.set subject names }
      pure names

def addImport (entry : Import) : Step Draft Unit :=
  modify fun draft => { draft with imports := Import.add entry draft.imports }

/-- Imports one alias and returns the name it has in the stub. -/
def importAlias (plan : Plan) (file : Node) (subject : Subject)
    (aliases names : List (Role × String)) (role : Role) : Step Draft String := do
  match aliases.lookup role with
  | none =>
      Step.fail (Cause.assertion ("no " ++ role.word ++ " alias requested for " ++ subject.text))
  | some name => do
      let draft ← get
      let localName := (names.lookup role).getD name
      addImport {
        fromModule := Location.relativeModule plan.options.suffix draft.file.name file.name
        name
        localName
        owner := subject.node }
      pure localName

def importAliases (plan : Plan) (target : Id) (file : Node) (roles : List Role) :
    Step Draft (List String) := do
  let subject : Subject := { node := target }
  let aliases ← inRegistry (Registry.getAliases subject)
  let names ← localsOf subject file.name aliases
  roles.mapM (importAlias plan file subject aliases names)

/-- The file that declares a node of another file. -/
def declaringFile (plan : Plan) (source : Id) (reference : Reference) : Step Draft Node :=
  match plan.graph.node? reference.file with
  | some file => pure file
  | none => Step.fail (Cause.unresolvedReference source reference.file "import")

def foreignType (plan : Plan) (reference : Reference) (kind : TypeKind) (view : View) :
    Step Draft String := do
  let draft ← get
  let file ← declaringFile plan draft.file.id reference
  let roles := view.foreignRoles kind
  let rest := view.foreignRest kind
  if roles.isEmpty then pure (Text.joinWith " | " rest)
  else do
    let names ← importAliases plan reference.target file roles
    pure (Text.joinWith " | " (names ++ rest))

end Draft

end SchemaStubs.Stub
