/-!
YAML values. A scalar keeps its text and how it was written, because what it stands for depends on
what it is read as.
-/

namespace SchemaStubs.Document

namespace Yaml

structure Scalar where
  text : String
  /-- Whether it is written without quotes and not as a block: only then can it stand for nothing,
  for a number or for a truth value. -/
  plain : Bool := true
  /-- The tag it has, in its short form. -/
  tag : Option String := none
  deriving DecidableEq, Repr, Inhabited

end Yaml

inductive Yaml where
  | scalar (value : Yaml.Scalar)
  | sequence (items : List Yaml)
  | mapping (pairs : List (Yaml × Yaml))
  deriving Repr, Inhabited

namespace Yaml

def absent : Yaml :=
  .scalar { text := "" }

end Yaml

end SchemaStubs.Document
