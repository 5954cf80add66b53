/-!
Why the file system refuses an action on a path.
-/

namespace SchemaStubs.Files

inductive Reason where
  | missing
  | isDirectory
  | notDirectory
  | nameTooLong
  | invalidName
  deriving DecidableEq, Repr

def Reason.text : Reason → String
  | missing => "no such file or directory"
  | isDirectory => "is a directory"
  | notDirectory => "not a directory"
  | nameTooLong => "file name too long"
  | invalidName => "invalid argument"

structure Refusal where
  action : String
  path : String
  reason : Reason
  deriving DecidableEq, Repr

/-- A directory can be opened but not read. -/
def Refusal.ofRead (path : String) (reason : Reason) : Refusal :=
  ⟨if reason = .isDirectory then "read" else "open", path, reason⟩

def Refusal.text (refusal : Refusal) : String :=
  refusal.action ++ " " ++ refusal.path ++ ": " ++ refusal.reason.text

end SchemaStubs.Files
