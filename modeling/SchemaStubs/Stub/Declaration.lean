/-!
The declarations a stub is made of: classes, methods without a body, annotated names and type
aliases.
-/

namespace SchemaStubs.Stub

/-- A parameter of a method. The name `*` alone marks that only keywords follow, and a name with two
stars in front takes the remaining keywords; a parameter without a type is its name. -/
structure Param where
  name : String
  type : String := ""
  default : String := ""
  deriving DecidableEq, Repr, Inhabited

/-- A method. The parameter `self` is always there and is not listed. -/
structure Signature where
  name : String
  params : List Param := []
  returns : String
  decorators : List String := []
  doc : List String := []
  deriving DecidableEq, Repr, Inhabited

inductive Declaration where
  | class (name : String) (bases doc : List String) (body : List Declaration)
  | method (signature : Signature)
  | annotated (name type : String)
  | typeAlias (name target : String)
  deriving Repr, Inhabited

namespace Signature

def overloaded (signature : Signature) : Signature :=
  { signature with decorators := "overload" :: signature.decorators }

def property (name type : String) (doc : List String) : Signature :=
  { name, returns := type, decorators := ["property"], doc }

def setter (name type : String) : Signature :=
  { name
    params := [{ name := "value", type }]
    returns := "None"
    decorators := [name ++ ".setter"] }

/-- A set of methods of one name: the typed ones and then the fallback. A fallback that stands alone
is a plain method. -/
def overloads (typed : List Signature) (fallback : Signature) : List Signature :=
  if typed.isEmpty then [fallback] else (typed ++ [fallback]).map overloaded

end Signature

/-- Names with an annotation or an alias stand together without a blank line between them. -/
def Declaration.isBinding : Declaration → Bool
  | .annotated .. | .typeAlias .. => true
  | _ => false

end SchemaStubs.Stub
