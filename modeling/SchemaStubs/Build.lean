import SchemaStubs.Schema.FormatVersion

/-!
What is known about the build of the program.
-/

namespace SchemaStubs

structure Build where
  commit : String := "dev"
  time : String := "unknown"
  version : String := "dev"
  deriving DecidableEq, Repr, Inhabited

namespace Build

def text (build : Build) : String :=
  s!"stubgen {build.version} (commit {build.commit}, built {build.time})"

/-- The first seven bytes of the commit. -/
def short (build : Build) : String :=
  Text.cut 7 build.commit

end Build

end SchemaStubs
