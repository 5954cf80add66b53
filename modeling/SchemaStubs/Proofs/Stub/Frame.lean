import SchemaStubs.Proofs.Step
import SchemaStubs.Stub.Generation

/-!
What drafting a stub can change. Every part of it is put together from a few steps. Writing a type
leaves marks in the registry, asks for the class of pointers to anything, and imports aliases along
the references of the walk. Declaring a node does that and besides makes journal entries, marks
nodes as declared, binds names, and asks for aliases. What these steps keep is kept by the whole
draft.
-/

namespace SchemaStubs.Stub

/-- An invariant of drafts that writing types keeps. Aliases are imported from other files only. -/
structure Writing (plan : Plan) (invariant : Draft → Prop) : Prop where
  targets : ∀ target reference, plan.references.get? target = some reference →
    reference.target = target
  markReferenced : ∀ id, (Draft.inRegistry (Registry.markReferenced id)).Keeps invariant
  anyPointer : ∀ draft, invariant draft → invariant { draft with usesAnyPointer := true }
  importAliases : ∀ target reference file roles draft,
    plan.references.get? target = some reference → plan.graph.node? reference.file = some file →
    reference.file ≠ draft.file.id → invariant draft →
    invariant ((Draft.importAliases plan target file roles).outcome draft).2

/-- An invariant of drafts that each of the elementary steps keeps. -/
structure Frame (plan : Plan) (invariant : Draft → Prop) : Prop extends Writing plan invariant where
  note : ∀ event, (Draft.note event).Keeps invariant
  markDeclared : ∀ id, (Draft.inRegistry (Registry.markDeclared id)).Keeps invariant
  bind : ∀ name owner, (Draft.bind name owner).Keeps invariant
  getAlias : ∀ subject role, (Draft.inRegistry (Registry.getAlias subject role)).Keeps invariant

theorem bind_keeps {invariant : Draft → Prop} {name : String} {owner : Id}
    (each : ∀ draft bindings, Import.bind name owner draft.bindings = .ok bindings →
      invariant draft → invariant { draft with bindings }) :
    (Draft.bind name owner).Keeps invariant := by
  intro draft start
  simp only [Draft.bind, Step.outcome_bind, Step.outcome_get, Step.outcome_of_except]
  rcases bound : Import.bind name owner draft.bindings with fault | bindings
  · exact start
  · exact each draft bindings bound start

namespace Writing

variable {plan : Plan} {invariant : Draft → Prop}

theorem internalOf (node : Node) : (Draft.internalOf node).Keeps invariant := by
  unfold Draft.internalOf
  refine .of_bind .of_get fun draft => ?_
  split
  · split
    · exact .of_fail _
    · exact .of_pure _
  · exact .of_fail _

theorem referenceTo (source target : Id) (via : String) :
    (Draft.referenceTo plan source target via).Keeps invariant := by
  unfold Draft.referenceTo
  split
  · exact .of_fail _
  · split
    · exact .of_fail _
    · exact .of_pure _

theorem declaringFile (source : Id) (reference : Reference) :
    (Draft.declaringFile plan source reference).Keeps invariant := by
  unfold Draft.declaringFile
  split
  · exact .of_pure _
  · exact .of_fail _

end Writing

theorem reference_to_returns {plan : Plan} {source target : Id} {via : String}
    {before after : Draft} {reference : Reference}
    (returns : (Draft.referenceTo plan source target via).Returns before reference after) :
    plan.references.get? target = some reference := by
  unfold Draft.referenceTo at returns
  split at returns
  · exact (Step.Returns.fail_iff.mp returns).elim
  · rename_i found
    split at returns
    · exact (Step.Returns.fail_iff.mp returns).elim
    · obtain ⟨rfl, _⟩ := Step.Returns.pure_iff.mp returns
      exact found

theorem declaring_file_returns {plan : Plan} {source : Id} {reference : Reference}
    {before after : Draft} {file : Node}
    (returns : (Draft.declaringFile plan source reference).Returns before file after) :
    plan.graph.node? reference.file = some file := by
  unfold Draft.declaringFile at returns
  split at returns
  · rename_i found
    obtain ⟨rfl, _⟩ := Step.Returns.pure_iff.mp returns
    exact found
  · exact (Step.Returns.fail_iff.mp returns).elim

namespace Writing

variable {plan : Plan} {invariant : Draft → Prop}

theorem reference_to_same {source target : Id} {via : String} {before after : Draft}
    {reference : Reference}
    (returns : (Draft.referenceTo plan source target via).Returns before reference after) :
    after = before :=
  (referenceTo source target via : Step.Keeps (fun draft => draft = before) _).returns returns rfl

theorem declaring_file_same {source : Id} {reference : Reference} {before after : Draft} {file : Node}
    (returns : (Draft.declaringFile plan source reference).Returns before file after) :
    after = before :=
  (declaringFile source reference : Step.Keeps (fun draft => draft = before) _).returns returns rfl

theorem foreignType (writing : Writing plan invariant) {target : Id} {reference : Reference}
    (known : plan.references.get? target = some reference) (kind : TypeKind) (view : View)
    {draft : Draft} (elsewhere : reference.file ≠ draft.file.id) (start : invariant draft) :
    invariant ((Draft.foreignType plan reference kind view).outcome draft).2 := by
  refine Step.Keeps.bind_from start fun seen _ reads _ => ?_
  obtain ⟨rfl, rfl⟩ := Step.Returns.get_iff.mp reads
  refine Step.Keeps.bind_from (declaringFile _ _ _ start) fun file middle returns _ => ?_
  obtain rfl := declaring_file_same returns
  have found := declaring_file_returns returns
  have same := writing.targets target reference known
  subst same
  dsimp only
  split
  · exact start
  · refine Step.Keeps.bind_from ?_ fun names _ _ kept => kept
    exact writing.importAliases _ reference file _ _ known found elsewhere start

theorem nodeType (writing : Writing plan invariant) (view : View) (kind : TypeKind) (target : Id) :
    (Draft.nodeType plan view kind target).Keeps invariant := by
  intro draft start
  refine Step.Keeps.bind_from start fun seen _ reads _ => ?_
  obtain ⟨rfl, rfl⟩ := Step.Returns.get_iff.mp reads
  refine Step.Keeps.bind_from (referenceTo _ _ _ _ start) fun reference middle returns _ => ?_
  obtain rfl := reference_to_same returns
  have known := reference_to_returns returns
  split
  · exact Step.Keeps.of_bind (writing.markReferenced target) (fun _ => .of_pure _) _ start
  · rename_i elsewhere
    exact writing.foreignType known kind view elsewhere start

theorem write (writing : Writing plan invariant) (view : View) (type : SchemaType) :
    ((Draft.spelling plan view).write type).Keeps invariant := by
  obtain ⟨kind, element, target, brand, scope, index⟩ := type
  unfold Spelling.write
  split
  · split
    · exact .of_pure _
    · exact .of_fail _
  · split
    · split
      · exact .of_fail _
      · rename_i element
        exact .of_bind (write writing view element) fun text => .of_pure _
    · exact writing.nodeType view _ target
    · exact writing.nodeType view _ target
    · exact writing.nodeType view _ target
    · exact .of_pure _
    · exact .of_pure _
    · exact .of_fail _

theorem typeText (writing : Writing plan invariant) (view : View) (type : Option SchemaType) :
    (Draft.typeText plan view type).Keeps invariant := by
  unfold Draft.typeText
  split
  · exact .of_bind .of_get fun draft => .of_fail _
  · refine .of_bind (writing.write view _) fun text => ?_
    split
    · exact .of_bind (.of_modify writing.anyPointer) fun _ => .of_pure _
    · exact .of_pure _

theorem memberType (writing : Writing plan invariant) (view : View) (member : Member) :
    (member.type plan view).Keeps invariant := by
  unfold Member.type
  split
  · exact writing.typeText view _
  · exact .of_bind (internalOf _) fun internal => .of_pure _

theorem dictView (writing : Writing plan invariant) (members : List Member) :
    (Struct.dictView plan members).Keeps invariant := by
  refine .of_bind (.of_mapM fun member _ => ?_) fun body => .of_pure _
  exact .of_bind (writing.memberType .dict member) fun type => .of_pure _

theorem readerView (writing : Writing plan invariant) (node : Node) (internal : String)
    (members : List Member) : (Struct.readerView plan node internal members).Keeps invariant := by
  refine .of_bind (.of_mapM fun member _ => ?_) fun properties => .of_pure _
  exact .of_bind (writing.memberType .reader member) fun type => .of_pure _

theorem accessors (writing : Writing plan invariant) (member : Member) :
    (Struct.accessors plan member).Keeps invariant := by
  refine .of_bind (writing.memberType .builder member) fun type => ?_
  dsimp only
  split
  · exact .of_pure _
  · exact .of_bind (writing.memberType .setter member) fun assigned => .of_pure _

theorem initializer (writing : Writing plan invariant) (member : Member) :
    (Struct.initializer plan member).Keeps invariant := by
  unfold Struct.initializer
  dsimp only
  split
  · exact .of_bind (writing.memberType .builder member) fun type => .of_pure _
  · split
    · exact .of_bind (writing.memberType .builder member) fun type => .of_pure _
    · exact .of_pure _

theorem builderView (writing : Writing plan invariant) (node : Node) (internal : String)
    (members : List Member) : (Struct.builderView plan node internal members).Keeps invariant := by
  have initializers : (Struct.initializers plan members).Keeps invariant :=
    .of_bind (.of_mapM fun member _ => writing.initializer member) fun typed => .of_pure _
  refine .of_bind (.of_mapM fun member _ => writing.accessors member) fun properties => ?_
  exact .of_bind initializers fun _ => .of_pure _

theorem newMessage (writing : Writing plan invariant) (internal : String) (members : List Member) :
    (Struct.newMessage plan internal members).Keeps invariant := by
  refine .of_bind (.of_mapM fun member _ => ?_) fun keywords => .of_pure _
  exact .of_bind (writing.memberType .setter member) fun type => .of_pure _

theorem views (writing : Writing plan invariant) (node : Node) (internal : String)
    (members : List Member) : (Struct.views plan node internal members).Keeps invariant := by
  refine .of_bind (writing.dictView members) fun dict => ?_
  refine .of_bind (writing.readerView node internal members) fun reader => ?_
  exact .of_bind (writing.builderView node internal members) fun builder => .of_pure _

theorem superclass (writing : Writing plan invariant) (node : Node) (id : Id) :
    (Interface.superclass plan node id).Keeps invariant := by
  intro draft start
  refine Step.Keeps.bind_from start fun seen _ reads _ => ?_
  obtain ⟨rfl, rfl⟩ := Step.Returns.get_iff.mp reads
  refine Step.Keeps.bind_from (referenceTo _ _ _ _ start) fun reference middle returns _ => ?_
  obtain rfl := reference_to_same returns
  have known := reference_to_returns returns
  split
  · exact Step.Keeps.of_bind (writing.markReferenced id) (fun _ => .of_pure _) _ start
  · rename_i elsewhere
    refine Step.Keeps.bind_from (declaringFile _ _ _ start) fun file middle returns _ => ?_
    obtain rfl := declaring_file_same returns
    have found := declaring_file_returns returns
    refine Step.Keeps.bind_from ?_ fun names _ _ kept => kept
    exact writing.importAliases id reference file _ _ known found elsewhere start

theorem bases (writing : Writing plan invariant) (node : Node) :
    (Interface.bases plan node).Keeps invariant := by
  unfold Interface.bases
  split
  · exact .of_pure _
  · exact .of_bind (.of_mapM fun id _ => writing.superclass node id) fun pairs => .of_pure _

theorem protocol (writing : Writing plan invariant) (name : String) (fields : List Field) :
    (Interface.protocol plan name fields).Keeps invariant := by
  refine .of_bind (.of_mapM fun field _ => ?_) fun body => .of_pure _
  exact .of_bind (writing.typeText .reader field.type) fun type => .of_pure _

theorem clientMethod (writing : Writing plan invariant) (internal stem : String) (method : Method) :
    (Interface.clientMethod plan internal stem method).Keeps invariant := by
  refine .of_bind (.of_mapM fun field _ => ?_) fun params => .of_pure _
  exact .of_bind (writing.typeText .setter field.type) fun type => .of_pure _

theorem serverMethods (writing : Writing plan invariant) (internal stem : String) (method : Method) :
    (Interface.serverMethods plan internal stem method).Keeps invariant := by
  refine .of_bind (.of_mapM fun field _ => ?_) fun params => ?_
  · exact .of_bind (writing.typeText .reader field.type) fun type => .of_pure _
  · exact .of_bind (.of_mapM fun field _ => writing.typeText .setter field.type) fun _ => .of_pure _

theorem surface (writing : Writing plan invariant) (internal : String) (method : Method) :
    (Interface.surface plan internal method).Keeps invariant := by
  have protocols : ∀ stem, (Interface.protocols plan internal stem method).Keeps invariant :=
    fun stem => .of_bind (writing.protocol _ _) fun _ =>
      .of_bind (writing.protocol _ _) fun _ => .of_pure _
  refine .of_bind (protocols _) fun _ => ?_
  refine .of_bind (writing.clientMethod internal _ method) fun client => ?_
  exact .of_bind (writing.serverMethods internal _ method) fun server => .of_pure _

theorem surfaces (writing : Writing plan invariant) (node : Node) (internal : String)
    (stems : List String) (methods : List Method) :
    (Interface.surfaces plan node internal stems methods).Keeps invariant := by
  induction methods generalizing stems with
  | nil => exact .of_pure _
  | cons method rest induction =>
      unfold Interface.surfaces
      dsimp only
      split
      · exact .of_fail _
      · refine .of_bind (writing.surface internal method) fun first => ?_
        exact .of_bind (induction _) fun others => .of_pure _

end Writing

def nestedDeclaration (plan : Plan) (declare : Node → Step Draft (List Declaration)) (node : Node)
    (id : Id) : Step Draft (List Declaration) :=
  match plan.graph.node? id with
  | none => Step.fail (Cause.unresolvedReference node.id id "nested")
  | some nested => if nested.isGroup then pure [] else declare nested

theorem nested_declarations_eq (plan : Plan) (declare : Node → Step Draft (List Declaration))
    (node : Node) : nestedDeclarations plan declare node =
      (node.nested.mapM (nestedDeclaration plan declare node) >>= fun inner => pure inner.flatten) :=
  rfl

theorem nested_declaration_of_found {plan : Plan} {declare : Node → Step Draft (List Declaration)}
    {id : Id} {child : Node} (found : plan.graph.node? id = some child) (single : child.isGroup = false)
    (node : Node) : nestedDeclaration plan declare node id = declare child := by
  unfold nestedDeclaration
  rw [found]
  simp [single]

namespace Frame

variable {plan : Plan} {invariant : Draft → Prop}

theorem declareStruct (frame : Frame plan invariant)
    {nested body : Node → Step Draft (List Declaration)}
    (keepsNested : ∀ node, (nested node).Keeps invariant)
    (keepsBody : ∀ node, (body node).Keeps invariant) (node : Node) :
    (Struct.declare plan nested body node).Keeps invariant := by
  unfold Struct.declare
  refine .of_bind (Writing.internalOf node) fun internal => ?_
  refine .of_bind (frame.markDeclared node.id) fun _ => ?_
  refine .of_bind (.of_of_except _) fun members => ?_
  refine .of_ite_bind (.of_pure _) (keepsNested node) fun inner => ?_
  refine .of_bind (.of_mapM fun group _ => keepsBody group) fun groups => ?_
  refine .of_bind (frame.views node internal members) fun views => ?_
  dsimp only
  split
  · exact .of_pure _
  · exact .of_bind (frame.newMessage internal members) fun _ => .of_pure _

theorem declareEnum (frame : Frame plan invariant) (node : Node) :
    (Enum.declare node).Keeps invariant := by
  unfold Enum.declare
  split
  · exact .of_fail _
  · refine .of_bind (Writing.internalOf node) fun internal => ?_
    exact .of_bind (frame.markDeclared node.id) fun _ => .of_pure _

theorem declareInterface (frame : Frame plan invariant)
    {nested : Node → Step Draft (List Declaration)}
    (keepsNested : ∀ node, (nested node).Keeps invariant) (node : Node) :
    (Interface.declare plan nested node).Keeps invariant := by
  refine .of_bind (Writing.internalOf node) fun internal => ?_
  refine .of_bind (frame.markDeclared node.id) fun _ => ?_
  refine .of_bind (keepsNested node) fun inner => ?_
  refine .of_bind (frame.bases node) fun bases => ?_
  exact .of_bind (frame.surfaces node internal [] node.methods) fun surfaces => .of_pure _

theorem anyPointerTarget (frame : Frame plan invariant) (node : Node) :
    (AnyPointer.target plan node).Keeps invariant := by
  unfold AnyPointer.target
  refine .of_bind .of_get fun draft => ?_
  split
  · exact .of_pure _
  · split
    · exact .of_pure _
    · refine .of_bind (Writing.internalOf node) fun internal => ?_
      exact .of_bind (frame.getAlias _ _) fun name => .of_pure _

theorem anyPointerTargets (frame : Frame plan invariant) :
    (AnyPointer.targets plan).Keeps invariant :=
  .of_bind (.of_mapM fun node _ => frame.anyPointerTarget node) fun _ => .of_pure _

theorem declareAnyPointer (frame : Frame plan invariant) :
    (AnyPointer.declare plan).Keeps invariant :=
  .of_bind frame.anyPointerTargets fun _ => .of_pure _

theorem nestedDeclaration {declare : Node → Step Draft (List Declaration)}
    (keepsDeclare : ∀ node, (declare node).Keeps invariant) (node : Node) (id : Id) :
    (Stub.nestedDeclaration plan declare node id).Keeps invariant := by
  unfold Stub.nestedDeclaration
  split
  · exact .of_fail _
  · split
    · exact .of_pure _
    · exact keepsDeclare _

theorem nestedDeclarations {declare : Node → Step Draft (List Declaration)}
    (keepsDeclare : ∀ node, (declare node).Keeps invariant) (node : Node) :
    (Stub.nestedDeclarations plan declare node).Keeps invariant :=
  .of_bind (.of_mapM fun id _ => nestedDeclaration keepsDeclare node id) fun _ => .of_pure _

theorem declareKind (frame : Frame plan invariant)
    {nested body : Node → Step Draft (List Declaration)}
    (keepsNested : ∀ node, (nested node).Keeps invariant)
    (keepsBody : ∀ node, (body node).Keeps invariant) (node : Node) :
    (Stub.declareKind plan nested body node).Keeps invariant := by
  refine .of_bind (frame.note _) fun _ => ?_
  split
  · exact .of_bind (frame.declareStruct keepsNested keepsBody node) fun _ => .of_pure _
  · exact .of_bind (frame.declareEnum node) fun _ => .of_pure _
  · exact .of_bind (frame.declareInterface keepsNested node) fun _ => .of_pure _
  · have constant : (Stub.constant plan node).Keeps invariant :=
      .of_bind (frame.typeText .reader node.constType) fun type => .of_pure _
    exact .of_bind constant fun _ => .of_pure _
  · exact .of_pure _
  · exact .of_fail _
  · exact .of_fail _

theorem declareFrom (frame : Frame plan invariant) (bound : Nat) (node : Node) :
    (Stub.declareFrom plan bound node).Keeps invariant := by
  induction bound generalizing node with
  | zero => exact .of_fail _
  | succ bound induction =>
      unfold Stub.declareFrom
      have nested : ∀ node, (Stub.nestedDeclarations plan (Stub.declareFrom plan bound) node).Keeps
          invariant := nestedDeclarations induction
      dsimp only
      split
      · exact .of_bind (frame.declareStruct nested induction node) fun _ => .of_pure _
      · exact frame.declareKind nested induction node

theorem declareNode (frame : Frame plan invariant) (node : Node) :
    (Stub.declareNode plan node).Keeps invariant := by
  unfold Stub.declareNode
  split
  · exact .of_bind (frame.note _) fun _ => .of_fail _
  · exact frame.declareFrom _ node

theorem bindTopLevel (frame : Frame plan invariant) (node : Node) (declaration : Declaration) :
    (Stub.bindTopLevel node declaration).Keeps invariant := by
  unfold Stub.bindTopLevel
  split
  · exact .of_bind (frame.bind _ _) fun _ => .of_pure _
  · exact .of_bind (frame.bind _ _) fun _ => .of_bind (frame.bind _ _) fun _ => .of_pure _
  · exact .of_pure _

theorem declareTopLevel (frame : Frame plan invariant) (node : Node) :
    (Stub.declareTopLevel plan node).Keeps invariant := by
  refine .of_bind (frame.declareNode node) fun declarations => ?_
  exact .of_bind (.of_mapM fun declaration _ => frame.bindTopLevel node declaration)
    fun bound => .of_pure _

theorem declareFile (frame : Frame plan invariant) :
    (Stub.declareFile plan).Keeps invariant := by
  refine .of_bind .of_get fun draft => ?_
  refine .of_bind (.of_mapM fun node _ => frame.declareTopLevel node) fun blocks => ?_
  refine .of_bind .of_get fun reached => ?_
  split
  · refine .of_bind (frame.bind _ _) fun _ => ?_
    exact .of_bind frame.declareAnyPointer fun _ => .of_pure _
  · exact .of_pure _

theorem layOut (frame : Frame plan invariant) (declarations : List Declaration) :
    (Stub.layOut plan declarations).Keeps invariant := by
  refine .of_bind .of_get fun draft => ?_
  refine .of_bind (.of_forM fun entry _ => frame.bind _ _) fun _ => ?_
  refine .of_bind .of_get fun reached => ?_
  refine .of_bind (.of_of_except _) fun imports => ?_
  exact .of_bind (frame.note _) fun _ => .of_pure _

theorem compose (frame : Frame plan invariant) (file : Node) :
    (Generation.compose plan file).Keeps invariant := by
  refine .of_bind (frame.declareFile.of_in_context _) fun declarations => ?_
  exact (frame.layOut declarations).of_in_context _

end Frame

end SchemaStubs.Stub
