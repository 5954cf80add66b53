import SchemaStubs.Text.Join

/-!
Names and strings in stub source. The keywords of Python cannot be names and get an underscore at the
end; the words that are keywords only in some places can, and stay as they are. Strings stand in types
that admit given strings and no other value.
-/

namespace SchemaStubs.Stub

def keywords : List String :=
  ["False", "None", "True", "and", "as", "assert", "async", "await", "break", "class", "continue",
    "def", "del", "elif", "else", "except", "finally", "for", "from", "global", "if", "import",
    "in", "is", "lambda", "nonlocal", "not", "or", "pass", "raise", "return", "try", "while",
    "with", "yield"]

def safeName (name : String) : String :=
  if name ∈ keywords then name ++ "_" else name

def escapeString : List Char → List Char
  | [] => []
  | c :: rest =>
      if c = '\\' ∨ c = '"' then '\\' :: c :: escapeString rest else c :: escapeString rest

def stringText (value : String) : String :=
  "\"" ++ String.ofList (escapeString value.toList) ++ "\""

def literal (values : List String) : String :=
  "Literal[" ++ Text.joinWith ", " (values.map stringText) ++ "]"

end SchemaStubs.Stub
