import SchemaStubs.Naming.Registry

/-!
Giving out aliases. Every file is a name space of its own. Requests are served in order of
priority; each takes the first of its candidate bases under which all its names are still free in
its file, and a request without such a base is a naming collision.
-/

namespace SchemaStubs.Registry

/-- Keeps a name out of the aliases of a file; the first owner stays. -/
def reserve (file : Id) (name : String) (owner : Id) : Step Registry Unit :=
  modify fun registry =>
    if registry.reserved.contains (file, name) then registry
    else { registry with reserved := registry.reserved.set (file, name) owner }

/-- Asks for aliases of a subject. All requests come before the first resolution. -/
def request (wish : Request) : Step Registry Unit := do
  let registry ← get
  let subject := wish.subject.text
  if registry.resolved then
    Step.fail (Cause.assertion s!"alias request for {subject} after resolution")
  else if wish.targets.isEmpty then
    Step.fail (Cause.assertion s!"alias request for {subject} without roles")
  else if registry.requests.any fun other => other.subject == wish.subject then
    Step.fail (Cause.assertion s!"duplicate alias request for {subject}")
  else set { registry with requests := registry.requests ++ [wish] }

def aliasOwner? (registry : Registry) (file : Id) (name : String) : Option Subject :=
  (registry.aliases.find? fun assigned => assigned.file == file && assigned.name == name).map
    Alias.subject

/-- The node that holds a name of a file, by an alias or by a reservation. -/
def holder? (registry : Registry) (file : Id) (name : String) : Option Id :=
  match registry.aliasOwner? file name with
  | some subject => some subject.node
  | none => registry.reserved.get? (file, name)

def namesIn (registry : Registry) (file : Id) : List String :=
  (registry.aliases.filter fun assigned => assigned.file == file).map Alias.name ++
    (registry.reserved.keys.filter fun key => key.1 == file).map Prod.snd

/-- The first name that keeps a base from being used in all the roles. -/
def obstacle? (registry : Registry) (file : Id) (roles : List Role) (base : String) :
    Option String :=
  (roles.map fun role => base ++ role.word).find? fun name => (registry.holder? file name).isSome

/-- The first base without an obstacle, or the obstacle of the last one. -/
def firstFree (registry : Registry) (file : Id) (roles : List Role) :
    String → List String → Except String String
  | obstacle, [] => .error obstacle
  | _, base :: rest =>
      match registry.obstacle? file roles base with
      | none => .ok base
      | some obstacle => firstFree registry file roles obstacle rest

def assignRole (wish : Request) (base : String) (role : Role) : Step Registry Unit := do
  let name := base ++ role.word
  modify fun registry =>
    { registry with
      aliases := registry.aliases ++ [⟨name, wish.target role, role, wish.subject, wish.file⟩] }
  note (.aliasAssigned wish.subject.text name role.word)

def assign (wish : Request) : Step Registry Unit := do
  let registry ← get
  match registry.firstFree wish.file wish.roles "" wish.candidates with
  | .ok base => wish.roles.forM (assignRole wish base)
  | .error obstacle =>
      Step.fail (Cause.nameCollision obstacle ((registry.holder? wish.file obstacle).getD 0)
        wish.subject.node)

def queue (registry : Registry) : List Request :=
  sortBy Request.servedBefore registry.requests

def assignedSubjects (registry : Registry) : List Subject :=
  (registry.aliases.map Alias.subject).eraseDups

/-- Serves all requests. It runs once: a resolution that failed counts as done. -/
def resolve : Step Registry Unit := do
  let registry ← get
  if registry.resolved then pure ()
  else do
    set { registry with resolved := true }
    registry.queue.forM assign
    let reached ← get
    note (.aliasesResolved reached.assignedSubjects.length)

def isClaimed (file : Id) (name : String) : Step Registry Bool :=
  fun registry =>
    match resolve.outcome registry with
    | (.ok _, reached) => (.ok (reached.holder? file name).isSome, reached)
    | (.error _, reached) => (.ok false, reached)

def aliasesOf (registry : Registry) (subject : Subject) : List (Role × String) :=
  (registry.aliases.filter fun assigned => assigned.subject == subject).map fun assigned =>
    (assigned.role, assigned.name)

def getAliases (subject : Subject) : Step Registry (List (Role × String)) := do
  resolve
  let registry ← get
  match registry.aliasesOf subject with
  | [] => Step.fail (Cause.assertion ("no aliases requested for " ++ subject.text))
  | names => pure names

def getAlias (subject : Subject) (role : Role) : Step Registry String := do
  let names ← getAliases subject
  match names.lookup role with
  | some name => pure name
  | none =>
      Step.fail (Cause.assertion ("no " ++ role.word ++ " alias requested for " ++ subject.text))

def table (registry : Registry) : List Alias :=
  sortBy Alias.listedBefore registry.aliases

end SchemaStubs.Registry
