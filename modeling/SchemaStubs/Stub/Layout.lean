import SchemaStubs.Stub.Declaration
import SchemaStubs.Text.Join

/-!
The text of declarations. A declaration is laid out as a list of lines, each with its level; a line
is written after four blanks for each level, and an empty line without any.
-/

namespace SchemaStubs.Stub

structure Line where
  level : Nat
  text : String
  deriving DecidableEq, Repr, Inhabited

namespace Line

def blank : Line :=
  ⟨0, ""⟩

def indent (level : Nat) : String :=
  String.ofList (List.replicate (4 * level) ' ')

def render (line : Line) : String :=
  if line.text == "" then "\n" else indent line.level ++ line.text ++ "\n"

end Line

def renderLines (lines : List Line) : String :=
  Text.concat (lines.map Line.render)

/-- Doubles backslashes and takes three double quotes in a row apart. -/
def escapeDocChars : List Char → List Char
  | '"' :: '"' :: '"' :: rest => '\\' :: '"' :: '\\' :: '"' :: '\\' :: '"' :: escapeDocChars rest
  | '\\' :: rest => '\\' :: '\\' :: escapeDocChars rest
  | c :: rest => c :: escapeDocChars rest
  | [] => []

/-- A line of a docstring that cannot end it: besides the escapes, a blank follows a double quote at
the end. -/
def escapeDoc (line : String) : String :=
  let escaped := escapeDocChars line.toList
  String.ofList (if escaped.getLast? = some '"' then escaped ++ [' '] else escaped)

def docQuotes : String :=
  "\"\"\""

/-- One line stands between its quotes; of several, the first follows the opening quotes and the
closing quotes have a line of their own. -/
def docstring (level : Nat) : List String → List Line
  | [] => []
  | [line] => [⟨level, docQuotes ++ escapeDoc line ++ docQuotes⟩]
  | first :: rest =>
      ⟨level, docQuotes ++ escapeDoc first⟩ ::
        rest.map (fun line => ⟨level, escapeDoc line⟩) ++ [⟨level, docQuotes⟩]

def Param.text (param : Param) : String :=
  if param.name == "*" || param.type == "" then param.name
  else
    param.name ++ ": " ++ param.type ++
      if param.default == "" then "" else " = " ++ param.default

namespace Signature

def head (signature : Signature) : String :=
  "def " ++ signature.name ++ "(" ++
    Text.joinWith ", " ("self" :: signature.params.map Param.text) ++ ") -> " ++
    signature.returns ++ ":"

def lines (level : Nat) (signature : Signature) : List Line :=
  signature.decorators.map (fun decorator => ⟨level, "@" ++ decorator⟩) ++
    if signature.doc.isEmpty then [⟨level, signature.head ++ " ..."⟩]
    else ⟨level, signature.head⟩ :: docstring (level + 1) signature.doc

end Signature

namespace Declaration

def classHead (name : String) (bases : List String) : String :=
  "class " ++ name ++ if bases.isEmpty then "" else "(" ++ Text.joinWith ", " bases ++ ")"

mutual

def lines (level : Nat) : Declaration → List Line
  | .class name bases doc body =>
      if doc.isEmpty && body.isEmpty then [⟨level, classHead name bases ++ ": ..."⟩]
      else
        ⟨level, classHead name bases ++ ":"⟩ ::
          (docstring (level + 1) doc ++ bodyLines (level + 1) body)
  | .method signature => signature.lines level
  | .annotated name type => [⟨level, name ++ ": " ++ type⟩]
  | .typeAlias name target => [⟨level, name ++ ": TypeAlias = " ++ target⟩]

def bodyLines (level : Nat) : List Declaration → List Line
  | [] => []
  | declaration :: rest => declaration.lines level ++ bodyLines level rest

end

def gap (first second : Declaration) : List Line :=
  if first.isBinding && second.isBinding then [] else [Line.blank]

def blocks : List Declaration → List Line
  | [] => []
  | [declaration] => declaration.lines 0
  | first :: second :: rest => first.lines 0 ++ gap first second ++ blocks (second :: rest)

end Declaration

end SchemaStubs.Stub
