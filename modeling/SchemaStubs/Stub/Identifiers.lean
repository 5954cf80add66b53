import SchemaStubs.Text.Casing

/-!
The identifiers that stand in stub source outside strings. A string in double quotes ends at the
next double quote that no backslash precedes, or with its line; a docstring ends at the next three
double quotes, and one that never ends takes the rest of the source with it.
-/

namespace SchemaStubs.Stub

inductive Place where
  | code
  | string
  | escape
  | docstring
  deriving DecidableEq, Repr

/-- The source with a blank in place of each string. -/
def stripFrom : Place → List Char → List Char
  | .code, '"' :: '"' :: '"' :: rest => stripFrom .docstring rest
  | .code, '"' :: rest => stripFrom .string rest
  | .code, c :: rest => c :: stripFrom .code rest
  | .code, [] => []
  | .string, '\\' :: rest => stripFrom .escape rest
  | .string, c :: rest =>
      if c = '"' ∨ c = '\n' then ' ' :: stripFrom .code rest else stripFrom .string rest
  | .string, [] => [' ']
  | .escape, _ :: rest => stripFrom .string rest
  | .escape, [] => [' ']
  | .docstring, '"' :: '"' :: '"' :: rest => ' ' :: stripFrom .code rest
  | .docstring, _ :: rest => stripFrom .docstring rest
  | .docstring, [] => []

def stripStrings (source : String) : String :=
  String.ofList (stripFrom .code source.toList)

/-- The words of a source that do not start with a digit, each once, as they first appear. -/
def identifiers (source : String) : List String :=
  let words := Text.runs (fun c => !Text.isIdentifierChar c) (stripFrom .code source.toList)
  ((words.filter fun word => !word.head?.any Text.isDigit).map String.ofList).eraseDups

end SchemaStubs.Stub
