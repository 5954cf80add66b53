import SchemaStubs.Id
import SchemaStubs.Text.Join

/-!
Aliases: the public names under which a stub exposes the views of a node. An alias is a base name
followed by the role it plays; what is named is a node, or one method of an interface.
-/

namespace SchemaStubs

/-- The view an alias exposes, known by the word that ends the alias. -/
structure Role where
  word : String
  deriving DecidableEq, Repr, Inhabited

namespace Role

def reader : Role := ⟨"Reader"⟩
def builder : Role := ⟨"Builder"⟩
def client : Role := ⟨"Client"⟩
def server : Role := ⟨"Server"⟩
def result : Role := ⟨"Result"⟩
def enum : Role := ⟨"Enum"⟩

def sorted (roles : List Role) : List Role :=
  sortBy (fun first second => Text.precedes first.word second.word) roles.eraseDups

end Role

structure Subject where
  node : Id
  /-- The method of an interface, or nothing for the node itself. -/
  method : String := ""
  deriving DecidableEq, Repr, Inhabited

def Subject.text (subject : Subject) : String :=
  if subject.method == "" then subject.node.text
  else subject.node.text ++ "." ++ subject.method

structure Request where
  subject : Subject
  /-- The qualified name; the shorter one is served first. -/
  declared : String
  /-- The local name. -/
  base : String
  /-- The local names of the enclosing scopes, the outermost first. -/
  qualifiers : List String := []
  /-- The name of the declaring file as a qualifier. -/
  fileQualifier : String := ""
  file : Id
  /-- The place among the declarations of the file. -/
  order : Int
  /-- What the alias in each role stands for. -/
  targets : List (Role × String)
  deriving Repr, Inhabited

namespace Request

def roles (request : Request) : List Role :=
  Role.sorted (request.targets.map Prod.fst)

def target (request : Request) (role : Role) : String :=
  (request.targets.lookup role).getD ""

/-- The bases to try in turn: the local name, then with the scopes in front, then with the file in
front of that. Empty and repeated ones are left out. -/
def candidates (request : Request) : List String :=
  let qualified := Text.concat request.qualifiers ++ request.base
  ([request.base, qualified, request.fileQualifier ++ qualified].filter fun base =>
    base != "").eraseDups

/-- Requests are served by the length of the declared name, then by their place in the file. -/
def servedBefore (first second : Request) : Bool :=
  Text.size first.declared < Text.size second.declared ||
    (Text.size first.declared == Text.size second.declared && first.order ≤ second.order)

end Request

structure Alias where
  name : String
  target : String
  role : Role
  subject : Subject
  file : Id
  deriving DecidableEq, Repr, Inhabited

def Alias.listedBefore (first second : Alias) : Bool :=
  decide (first.name < second.name) || (first.name == second.name && first.file ≤ second.file)

end SchemaStubs
