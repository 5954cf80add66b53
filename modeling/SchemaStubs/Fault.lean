import SchemaStubs.Command.Misuse
import SchemaStubs.Files.Refusal
import SchemaStubs.Schema.Defect
import SchemaStubs.Settings.Problem

/-!
Failures. A fault has one cause, the contexts it passed through on its way out, and hints for the
user. Most causes belong to a class; the class of a failure is what callers branch on, and its text
ends the message. The failures a run is meant to have are of the classes that end a run; an assertion
is of none, and a search that was given up would be reported as a fault of the schema without being
one.
-/

namespace SchemaStubs

/-- The classes of failure. All but `drift` end a generation run. -/
inductive FaultClass where
  | unresolvedReference
  | pendingReference
  | nameCollision
  | unsupported
  | invalidSchema
  | drift
  deriving DecidableEq, Repr

namespace FaultClass

def text : FaultClass → String
  | unresolvedReference => "unresolved reference"
  | pendingReference => "pending reference"
  | nameCollision => "naming collision"
  | unsupported => "unsupported construct"
  | invalidSchema => "invalid schema"
  | drift => "stubs are out of date"

def all : List FaultClass :=
  [unresolvedReference, pendingReference, nameCollision, unsupported, invalidSchema, drift]

def ofText? (text : String) : Option FaultClass :=
  all.find? fun candidate => candidate.text == text

end FaultClass

inductive Cause where
  | unresolvedReference (source target : Id) (via : String)
  | pendingReference (targets : List Id)
  | nameCollision (name : String) (first second : Id)
  | shadowedImport (name : String) (owner : Id) (fromModule : String)
  | unsupportedNode (id : Id) (kind reason : String)
  | unknownNodeKind (id : Id) (kind : NodeKind)
  | unsupportedType (kind : String)
  | defect (found : Defect)
  | malformedDocument (format : String)
  | drift
  | refusal (given : Files.Refusal)
  | setting (problem : Settings.Problem)
  | misuse (found : Command.Misuse)
  | assertion (text : String)
  | message (text : String)
  deriving DecidableEq, Repr

namespace Cause

/-- The class of a cause. A bare message whose text is the text of a class belongs to that class,
and so does an assertion. -/
def class? : Cause → Option FaultClass
  | unresolvedReference .. => some .unresolvedReference
  | pendingReference _ => some .pendingReference
  | nameCollision .. | shadowedImport .. => some .nameCollision
  | unsupportedNode .. | unknownNodeKind .. | unsupportedType _ => some .unsupported
  | defect _ | malformedDocument _ => some .invalidSchema
  | drift => some .drift
  | refusal _ | setting _ | misuse _ => none
  | assertion text | message text => FaultClass.ofText? text

/-- Puts a detail in front of a text; an empty detail adds nothing. -/
def within (detail text : String) : String :=
  if detail == "" then text else detail ++ ": " ++ text

def text : Cause → String
  | unresolvedReference source target via =>
      within s!"node {source} references {target} via {via}" FaultClass.unresolvedReference.text
  | pendingReference targets =>
      within ("references to [" ++ Text.joinWith " " (targets.map Id.text) ++
        "] were never resolved") FaultClass.pendingReference.text
  | nameCollision name first second =>
      within (Text.quote name ++ s!" claimed by both {first} and {second}")
        FaultClass.nameCollision.text
  | shadowedImport name owner fromModule =>
      within (Text.quote name ++ s!" declared by {owner} shadows {fromModule}.{name}")
        FaultClass.nameCollision.text
  | unsupportedNode id kind reason =>
      within s!"node {id} ({kind}): {reason}" FaultClass.unsupported.text
  | unknownNodeKind id kind =>
      within (s!"node {id} (" ++ kind.text ++ "): unknown node kind") FaultClass.unsupported.text
  | unsupportedType kind => within ("type kind " ++ Text.quote kind) FaultClass.unsupported.text
  | defect found => within found.text FaultClass.invalidSchema.text
  | malformedDocument format => s!"malformed {format} schema document"
  | drift => FaultClass.drift.text
  | refusal given => given.text
  | setting problem => problem.text
  | misuse found => found.text
  | assertion text => text
  | message text => text

/-- The text of a cause in a message. A refusal of the file system and a misuse of the command line
are shown as they are. -/
def shown (cause : Cause) : String :=
  match cause with
  | refusal given => given.text
  | misuse found => found.text
  | _ => Text.withoutMarks cause.text

def hints : Cause → List String
  | unresolvedReference .. =>
      ["the schema document must contain every node reachable from the requested files, " ++
        "including imported files"]
  | nameCollision .. =>
      ["two nodes share a fully qualified declared name; check the schema document for duplicates"]
  | shadowedImport .. => ["rename the schema declaration; stub modules import this name"]
  | unknownNodeKind .. => ["known kinds: file, struct, enum, interface, const, annotation"]
  | defect found => found.hints
  | setting problem => problem.hints
  | _ => []

end Cause

structure Fault where
  cause : Cause
  /-- The contexts added on the way out, the innermost first. -/
  contexts : List String := []
  /-- Hints added beside those of the cause. -/
  extraHints : List String := []
  deriving DecidableEq, Repr

namespace Fault

instance : Coe Cause Fault where
  coe cause := ⟨cause, [], []⟩

instance : Coe Defect Fault where
  coe defect := ⟨.defect defect, [], []⟩

def withContext (context : String) (fault : Fault) : Fault :=
  { fault with contexts := fault.contexts ++ [context] }

def withHint (hint : String) (fault : Fault) : Fault :=
  { fault with extraHints := fault.extraHints ++ [hint] }

/-- The contexts from the outermost to the innermost, then the cause. -/
def message (fault : Fault) : String :=
  fault.contexts.foldl (fun text context => Cause.within (Text.withoutMarks context) text)
    fault.cause.shown

/-- The hints of the cause and then those added, each once. -/
def hints (fault : Fault) : List String :=
  (fault.cause.hints ++ fault.extraHints).eraseDups

def class? (fault : Fault) : Option FaultClass :=
  fault.cause.class?

def isFatal (fault : Fault) : Bool :=
  match fault.class? with
  | none | some .drift => false
  | some _ => true

end Fault

/-- A failure that tells what is wrong with the schema: it is of a class that ends a run, and
neither an assertion nor a search along scopes or groups that was given up. -/
structure Fault.Expected (fault : Fault) : Prop where
  fatal : fault.isFatal = true
  foreseen : ∀ text, fault.cause ≠ .assertion text
  ended : ∀ id, fault.cause ≠ .defect (.endlessScope id) ∧ fault.cause ≠ .defect (.endlessGroup id)

theorem Fault.Expected.withContext {fault : Fault} (expected : fault.Expected) (context : String) :
    (fault.withContext context).Expected :=
  ⟨expected.fatal, expected.foreseen, expected.ended⟩

theorem Fault.Expected.collision (name : String) (first second : Id) :
    Fault.Expected (Cause.nameCollision name first second) :=
  ⟨rfl, by simp, by simp⟩

theorem Fault.Expected.unresolved (source target : Id) (via : String) :
    Fault.Expected (Cause.unresolvedReference source target via) :=
  ⟨rfl, by simp, by simp⟩

theorem Fault.Expected.pending (targets : List Id) :
    Fault.Expected (Cause.pendingReference targets) :=
  ⟨rfl, by simp, by simp⟩

theorem Fault.Expected.unsupported (id : Id) (kind reason : String) :
    Fault.Expected (Cause.unsupportedNode id kind reason) :=
  ⟨rfl, by simp, by simp⟩

end SchemaStubs
