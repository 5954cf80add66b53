import SchemaStubs.Fault
import SchemaStubs.Schema.Node
import SchemaStubs.Stub.Foreign

/-!
Types as text. A spelling says how the parts of types are written; how a reference to a node is
written may depend on, and change, the state of a run. A stub writes types as they are seen through a
view: classes of the same stub by their identifiers, those of other stubs by imported aliases.
-/

namespace SchemaStubs.Stub

structure Spelling (m : Type → Type) where
  primitive : TypeKind → Option String
  list : String → String
  /-- A pointer to anything; generic parameters are erased to it. -/
  anyPointer : String
  reference : TypeKind → Id → m String

def primitiveType : TypeKind → Option String
  | .void => some "None"
  | .bool => some "bool"
  | .int8 | .int16 | .int32 | .int64 | .uint8 | .uint16 | .uint32 | .uint64 => some "int"
  | .float32 | .float64 => some "float"
  | .text => some "str"
  | .data => some "bytes"
  | _ => none

namespace Spelling

variable {m : Type → Type} [Monad m]

def fail [MonadExceptOf Fault m] {α : Type} (fault : Fault) : m α :=
  throw fault

def write [MonadExceptOf Fault m] (spelling : Spelling m) : SchemaType → m String
  | ⟨kind, element, target, _, _, _⟩ =>
      if kind.isPrimitive then
        match spelling.primitive kind with
        | some text => pure text
        | none => fail (Cause.assertion ("no mapping for primitive " ++ Text.quote kind.name))
      else match kind with
        | .list =>
            match element with
            | none => fail Defect.elementlessList
            | some element => do
                let text ← write spelling element
                pure (spelling.list text)
        | .enum | .struct | .interface => spelling.reference kind target
        | .anyPointer | .parameter => pure spelling.anyPointer
        | _ => fail (Cause.unsupportedType kind.name)

end Spelling

def optional (type : String) : String :=
  if type == "None" || Text.endsWith "| None" type then type else type ++ " | None"

namespace Draft

def referenceTo (plan : Plan) (source target : Id) (via : String) : Step Draft Reference :=
  match plan.references.get? target with
  | none => Step.fail (Cause.unresolvedReference source target via)
  | some reference =>
      if reference.pending then Step.fail (Cause.pendingReference [target]) else pure reference

def nodeType (plan : Plan) (view : View) (kind : TypeKind) (target : Id) : Step Draft String := do
  let draft ← get
  let reference ← referenceTo plan draft.file.id target "type"
  if reference.file = draft.file.id then do
    inRegistry (Registry.markReferenced target)
    pure (view.localType reference.internal kind)
  else foreignType plan reference kind view

def spelling (plan : Plan) (view : View) : Spelling (Step Draft) where
  primitive := primitiveType
  list element := "Sequence[" ++ element ++ "]"
  anyPointer := view.anyPointer
  reference := nodeType plan view

/-- The text of a type. A text that mentions the class for pointers to anything makes the stub
declare that class. -/
def typeText (plan : Plan) (view : View) (type : Option SchemaType) : Step Draft String := do
  match type with
  | none => do
      let draft ← get
      Step.fail (Cause.assertion s!"nil type in {draft.file.id}")
  | some type => do
      let text ← (spelling plan view).write type
      if Text.contains anyPointerClass text then
        modify fun draft => { draft with usesAnyPointer := true }
      pure text

end Draft

end SchemaStubs.Stub
