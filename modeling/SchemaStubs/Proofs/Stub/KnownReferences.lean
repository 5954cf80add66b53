import SchemaStubs.Proofs.Naming.Locality
import SchemaStubs.Proofs.Stub.Failing
import SchemaStubs.Proofs.Stub.Preparation

/-!
What a stub refers to is known when it is drafted. The walk follows whatever the declarations of a
stub, those nested in them and the bodies of their groups are written with; so each enum, struct,
interface and superclass that a draft looks up has a reference that is not pending and is of the kind
it is looked up as. A draft may fail for other reasons, and for these it does not.
-/

namespace SchemaStubs

/-- A failure that is neither for want of a reference nor for a type that cannot be written. -/
structure Fault.Informed (fault : Fault) : Prop where
  resolved : fault.class? ≠ some .unresolvedReference
  settled : fault.class? ≠ some .pendingReference
  supported : ∀ kind, fault.cause ≠ .unsupportedType kind
  mapped : ∀ kind : TypeKind,
    fault.cause ≠ .assertion ("no mapping for primitive " ++ Text.quote kind.name)

namespace Fault.Informed

theorem collision (name : String) (first second : Id) :
    Fault.Informed (Cause.nameCollision name first second) :=
  ⟨by simp [Fault.class?, Cause.class?], by simp [Fault.class?, Cause.class?], by simp, by simp⟩

theorem unsupported (id : Id) (kind reason : String) :
    Fault.Informed (Cause.unsupportedNode id kind reason) :=
  ⟨by simp [Fault.class?, Cause.class?], by simp [Fault.class?, Cause.class?], by simp, by simp⟩

theorem defect (found : Defect) : Fault.Informed found :=
  ⟨by simp [Fault.class?, Cause.class?], by simp [Fault.class?, Cause.class?], by simp, by simp⟩

theorem assertion {text : String} (begins : text.toList.take 4 ≠ "unre".toList ∧
    text.toList.take 4 ≠ "pend".toList ∧ text.toList.take 4 ≠ "no m".toList) :
    Fault.Informed (Cause.assertion text) := by
  have differs : ∀ found : FaultClass, text ≠ found.text → FaultClass.ofText? text ≠ some found := by
    intro found other classed
    have same := List.find?_some classed
    exact other (by simpa using Eq.comm.mp (eq_of_beq same))
  refine ⟨differs _ fun same => ?_, differs _ fun same => ?_, by simp, fun kind same => ?_⟩
  · rw [same] at begins
    exact begins.1 (by decide)
  · rw [same] at begins
    exact begins.2.1 (by decide)
  · rw [Cause.assertion.inj same, String.toList_append] at begins
    refine begins.2.2 ?_
    rw [List.take_append_of_le_length (by decide)]
    decide

end Fault.Informed

inductive Node.Writes (node : Node) : SchemaType → Prop where
  | slot {field : Field} {type : SchemaType} (isStruct : node.kind = .struct)
      (member : field ∈ node.fields) (plain : field.isGroup = false) (typed : field.type = some type) :
      Writes node type
  | argument {method : Method} {field : Field} {type : SchemaType}
      (isInterface : node.kind = .interface) (declared : method ∈ node.methods)
      (member : field ∈ method.params ++ method.results) (typed : field.type = some type) :
      Writes node type
  | const {type : SchemaType} (isConst : node.kind = .const) (typed : node.constType = some type) :
      Writes node type

theorem Node.Writes.checked {node : Node} {nodes : List Node} {type : SchemaType}
    (writes : node.Writes type) (passed : node.checkMembers nodes = .ok ()) :
    type.check node.id = .ok () := by
  cases writes with
  | @slot field _ isStruct member plain typed =>
      have checked := Node.check_members_field passed isStruct member
      unfold Node.checkField at checked
      rw [typed] at checked
      by_cases unnamed : field.name = ""
      · cases kind : field.kind <;> simp_all [Field.isGroup]
      · cases kind : field.kind <;> simp_all [Field.isGroup]
  | argument isInterface declared member typed =>
      unfold Node.checkMembers at passed
      rw [isInterface] at passed
      have checked := except_forM_ok passed _ declared
      unfold Node.checkMethod at checked
      split at checked
      · cases checked
      · have each := except_forM_ok checked _ member
        unfold Node.checkParameter at each
        rw [typed] at each
        dsimp only at each
        split at each
        · cases each
        · exact each
  | const isConst typed =>
      unfold Node.checkMembers at passed
      rw [isConst, typed] at passed
      exact passed

/-- What a type that a node is written with refers to is a dependency of the node. -/
theorem Node.Writes.depends {node : Node} {type : SchemaType} (writes : node.Writes type) :
    ∃ via, ∀ dependency ∈ type.dependencies via, dependency ∈ node.dependencies := by
  cases writes with
  | @slot field _ isStruct member plain typed =>
      refine ⟨.field, fun dependency inside => List.mem_append_right _ ?_⟩
      rw [Node.memberDependencies, isStruct]
      refine List.mem_flatMap.mpr ⟨field, member, ?_⟩
      simpa [Field.dependencies, plain, Field.typeDependencies, typed] using inside
  | @argument method field _ isInterface declared member typed =>
      rcases List.mem_append.mp member with inParams | inResults
      · refine ⟨.param, fun dependency inside =>
          Node.mem_dependencies_of_method isInterface declared (List.mem_append_left _ ?_)⟩
        exact List.mem_flatMap.mpr ⟨field, inParams, by simpa [Field.typeDependencies, typed] using inside⟩
      · refine ⟨.result, fun dependency inside =>
          Node.mem_dependencies_of_method isInterface declared (List.mem_append_right _ ?_)⟩
        exact List.mem_flatMap.mpr ⟨field, inResults, by simpa [Field.typeDependencies, typed] using inside⟩
  | const isConst typed =>
      refine ⟨.const, fun dependency inside => List.mem_append_right _ ?_⟩
      rw [Node.memberDependencies, isConst]
      simpa only [typed] using inside

namespace Stub

open Generation

/-- The nodes whose members a stub presents: those at the top level of its file, what is nested in a
struct or an interface, and the bodies of the groups of a struct. -/
inductive Presents (plan : Plan) (file : Id) : Node → Prop where
  | top {node : Node} (listed : node ∈ topLevelNodes plan file) : Presents plan file node
  | nested {outer node : Node} {id : Id} (inside : Presents plan file outer) (listed : id ∈ outer.nested)
      (found : plan.graph.node? id = some node) : Presents plan file node
  | body {outer node : Node} {field : Field} (inside : Presents plan file outer)
      (isStruct : outer.kind = .struct) (member : field ∈ outer.fields) (isGroup : field.isGroup = true)
      (found : plan.graph.node? field.group = some node) : Presents plan file node

/-- The walk left a reference to a node that is not pending, is of a kind, and tells the file. -/
def Plan.Knows (plan : Plan) (target : Id) (kind : NodeKind) : Prop :=
  ∃ reference, plan.references.get? target = some reference ∧ reference.pending = false ∧
    reference.kind = kind ∧ (plan.graph.node? reference.file).isSome

/-- A type that can be written: of a primitive kind, a list of such a type, a reference to a node that is
known to be of the kind the type names, or erased. -/
inductive Writable (plan : Plan) : SchemaType → Prop where
  | primitive {type : SchemaType} (isPrimitive : type.kind.isPrimitive = true) : Writable plan type
  | list {type element : SchemaType} (isList : type.kind = .list) (held : type.element = some element)
      (inner : Writable plan element) : Writable plan type
  | reference {type : SchemaType} {kind : NodeKind} (refers : type.kind.target? = some kind)
      (knows : plan.Knows type.target kind) : Writable plan type
  | erased {type : SchemaType} (anything : type.kind = .anyPointer ∨ type.kind = .parameter) :
      Writable plan type

theorem Writable.element {plan : Plan} {type element : SchemaType} (writable : Writable plan type)
    (isList : type.kind = .list) (held : type.element = some element) : Writable plan element := by
  cases writable with
  | primitive isPrimitive =>
      rw [isList] at isPrimitive
      exact absurd isPrimitive (by decide)
  | list _ same inner =>
      rw [held] at same
      cases same
      exact inner
  | reference refers _ => simp [isList, TypeKind.target?] at refers
  | erased anything => simp [isList] at anything

/-- A reference that can be written is to a node of the kind that its type names. -/
theorem Writable.target {plan : Plan} {type : SchemaType} (writable : Writable plan type)
    (isReference : type.isReference = true) :
    ∃ kind, type.kind.target? = some kind ∧ plan.Knows type.target kind := by
  unfold SchemaType.isReference at isReference
  cases writable with
  | primitive isPrimitive =>
      cases same : type.kind <;> rw [same] at isPrimitive isReference <;>
        first | exact absurd isPrimitive (by decide) | cases isReference
  | list isList _ _ =>
      rw [isList] at isReference
      cases isReference
  | reference refers knows => exact ⟨_, refers, knows⟩
  | erased anything =>
      rcases anything with same | same <;>
        · rw [same] at isReference
          cases isReference

/-- A checked type is writable if the nodes it refers to outside its brands are known. -/
theorem writable_of_check {plan : Plan} {owner : Id} (via : Via) (type : SchemaType)
    (passed : type.check owner = .ok ())
    (known : ∀ target kind, ⟨via, target, some kind⟩ ∈ type.dependencies via → plan.Knows target kind) :
    Writable plan type := by
  match type with
  | ⟨kind, element, target, brand, scope, index⟩ =>
      have refers : ∀ wanted, kind.target? = some wanted →
          Writable plan ⟨kind, element, target, brand, scope, index⟩ := by
        intro wanted refers
        refine .reference refers (known target wanted ?_)
        rw [SchemaType.dependencies_of_reference refers]
        exact List.mem_cons_self
      cases kind with
      | list =>
          rcases element with _ | element
          · simp [SchemaType.check] at passed
          · have inner : element.check owner = .ok () := by simpa [SchemaType.check] using passed
            refine .list rfl rfl (writable_of_check via element inner ?_)
            intro target kind listed
            apply known target kind
            rwa [SchemaType.dependencies_of_list rfl rfl]
      | enum => exact refers _ rfl
      | struct => exact refers _ rfl
      | interface => exact refers _ rfl
      | anyPointer => exact .erased (.inl rfl)
      | parameter => exact .erased (.inr rfl)
      | unknown name => simp [SchemaType.check] at passed
      | _ => exact .primitive rfl

/-- What the walk of a run left behind: the nodes met and what they depend on. -/
structure Toured (plan : Plan) : Prop where
  checked : ∀ node ∈ plan.graph.nodes, node.check plan.graph.nodes = .ok ()
  targets : ∀ target reference, plan.references.get? target = some reference →
    reference.target = target
  kinds : ∀ target reference, plan.references.get? target = some reference →
    ∃ node, plan.graph.node? target = some node ∧ reference.kind = node.kind
  closed : ∀ id ∈ plan.order, ∀ node, plan.graph.node? id = some node →
    ∀ dependency ∈ node.dependencies, dependency.target ∈ plan.order ∧
      Walk.Fits plan.graph dependency ∧
      ∀ kind, dependency.wanted = some kind → plan.Knows dependency.target kind

theorem toured_of_survey (options : Options) {entries : List (Option Node)} {requested : List Id}
    {graph : Graph} (built : Graph.build entries requested = .ok graph) {walk : Walk}
    {surveyed : Registry}
    (surveys : (survey graph graph.requested.eraseDups).Returns {} walk surveyed) :
    Toured { graph, options, order := walk.order, references := walk.references } := by
  obtain ⟨rfl, traverses, referenced, _, _⟩ := survey_returns surveys
  obtain ⟨_, walk, walks, rfl, _⟩ := Step.Returns.within_iff.mp surveys
  obtain ⟨⟨_, fitted⟩, _⟩ := (Walk.fitted_carries graph graph.requested.eraseDups).run
    (fun _ member => member) ⟨Walk.Traverses.start graph _, Walk.Fitted.start graph⟩ walks
  refine ⟨(Graph.build_ok built).2.2.2.2, fun target reference known =>
    (referenced.located traverses known).2.1, fun target reference known => ?_,
    fun id member node found dependency listed => ?_⟩
  · obtain ⟨_, _, _, node, _, isTarget, sameKind, _⟩ := referenced.located traverses known
    exact ⟨node, isTarget, sameKind⟩
  have complete := (traverses.mem_order_iff_complete id).mp member
  have edge := traverses.closed id node complete found dependency listed
  have fits := Walk.fits_of_mem_order traverses fitted member found listed
  refine ⟨(traverses.met _ edge).2.1, fits, fun kind wanted => ?_⟩
  obtain ⟨reference, known⟩ := Option.isSome_iff_exists.mp (referenced.mentioned _ edge)
  obtain ⟨settled, _, _, target, file, isTarget, sameKind, inFile, place, _⟩ :=
    referenced.located traverses known
  obtain ⟨other, isOther, ofKind⟩ := fits
  have same : other = target := by
    rw [isTarget] at isOther
    exact (Option.some.inj isOther).symm
  refine ⟨reference, known, settled, ?_, ?_⟩
  · rw [sameKind, ← same]
    exact ofKind kind wanted
  · rw [place, Graph.node?_of_file inFile]
    rfl

namespace Toured

variable {plan : Plan} {file : Id} {node : Node}

theorem met (toured : Toured plan) (presents : Presents plan file node) :
    node.id ∈ plan.order ∧ plan.graph.node? node.id = some node := by
  induction presents with
  | top listed =>
      obtain ⟨id, met, found⟩ := List.mem_filterMap.mp (List.mem_filter.mp listed).1
      obtain rfl := Graph.id_of_node? found
      exact ⟨met, found⟩
  | @nested outer node id _ listed found induction =>
      obtain ⟨met, _⟩ := toured.closed outer.id induction.1 outer induction.2 ⟨.nested, id, none⟩
        (List.mem_append_left _ (List.mem_map_of_mem listed))
      obtain rfl := Graph.id_of_node? found
      exact ⟨met, found⟩
  | @body outer node field _ isStruct member isGroup found induction =>
      have listed : ⟨.group, field.group, some .struct⟩ ∈ outer.dependencies := by
        refine List.mem_append_right _ ?_
        rw [Node.memberDependencies, isStruct]
        exact List.mem_flatMap.mpr ⟨field, member, by simp [Field.dependencies, isGroup]⟩
      obtain ⟨met, _⟩ := toured.closed outer.id induction.1 outer induction.2 _ listed
      rw [← Graph.id_of_node? found] at met
      exact ⟨met, Graph.id_of_node? found ▸ found⟩

theorem passed (toured : Toured plan) (presents : Presents plan file node) :
    node.check plan.graph.nodes = .ok () :=
  toured.checked node (Graph.mem_of_node? (toured.met presents).2)

theorem writable (toured : Toured plan) (presents : Presents plan file node) {type : SchemaType}
    (writes : node.Writes type) : Writable plan type := by
  obtain ⟨met, found⟩ := toured.met presents
  obtain ⟨via, depends⟩ := writes.depends
  refine writable_of_check via type
    (writes.checked (Node.check_ok (toured.passed presents)).2.2.2) fun target kind listed => ?_
  exact (toured.closed node.id met node found _ (depends _ listed)).2.2 kind rfl

/-- Every superclass of an interface of a stub is known as an interface. -/
theorem knows_superclass (toured : Toured plan) (presents : Presents plan file node)
    (isInterface : node.kind = .interface) {id : Id} (listed : id ∈ node.superclasses) :
    plan.Knows id .interface := by
  obtain ⟨met, found⟩ := toured.met presents
  refine (toured.closed node.id met node found ⟨.superclass, id, some .interface⟩ ?_).2.2 _ rfl
  refine List.mem_append_right _ ?_
  rw [Node.memberDependencies, isInterface]
  exact List.mem_append_left _ (List.mem_map_of_mem listed)

end Toured

/-! Steps that fail in no other way -/

theorem Toured.frame {plan : Plan} (toured : Toured plan) : Frame plan fun _ => True where
  targets := toured.targets
  markReferenced _ _ _ := trivial
  anyPointer _ _ := trivial
  importAliases _ _ _ _ _ _ _ _ _ := trivial
  note _ _ _ := trivial
  markDeclared _ _ _ := trivial
  bind _ _ _ _ := trivial
  getAlias _ _ _ _ := trivial

section Steps

variable {plan : Plan}

theorem internal_of_informed (node : Node) : (Draft.internalOf node).FailsAs Fault.Informed := by
  have never : Fault.Informed (Cause.assertion s!"node {node.id} was never registered") :=
    .assertion (by simp [toString])
  unfold Draft.internalOf
  refine .of_bind .of_get fun draft => ?_
  split
  · split
    · exact .of_fail never
    · exact .of_pure _
  · exact .of_fail never

def draftedRoles : List Role :=
  [.reader, .builder, .client, .server, .enum]

theorem missing_informed {role : Role} (known : role ∈ draftedRoles) (rest : String) :
    Fault.Informed (Cause.assertion ("no " ++ role.word ++ rest)) := by
  simp only [draftedRoles, List.mem_cons, List.not_mem_nil, or_false] at known
  rcases known with rfl | rfl | rfl | rfl | rfl <;>
    exact .assertion (by simp [Role.reader, Role.builder, Role.client, Role.server, Role.enum])

theorem foreign_roles_drafted (kind : TypeKind) (view : View) {role : Role}
    (member : role ∈ view.foreignRoles kind) : role ∈ draftedRoles := by
  cases kind <;> cases view <;> simp_all [View.foreignRoles, draftedRoles] <;> grind

theorem get_aliases_informed (subject : Subject) :
    (Registry.getAliases subject).FailsAs Fault.Informed := by
  refine .of_bind (Registry.resolve_fails_as .collision) fun _ => .of_bind .of_get fun registry => ?_
  split
  · exact .of_fail (.assertion (by simp))
  · exact .of_pure _

theorem import_aliases_informed (target : Id) (file : Node) {roles : List Role}
    (known : ∀ role ∈ roles, role ∈ draftedRoles) :
    (Draft.importAliases plan target file roles).FailsAs Fault.Informed := by
  unfold Draft.importAliases
  refine .of_bind (.of_on_part (get_aliases_informed _)) fun aliases => .of_bind ?_ fun names => ?_
  · refine .of_bind .of_get fun draft => ?_
    split
    · exact .of_pure _
    · exact .of_bind (.of_set _) fun _ => .of_pure _
  · refine .of_mapM fun role member => ?_
    unfold Draft.importAlias
    split
    · rw [String.append_assoc]
      exact .of_fail (missing_informed (known role member) _)
    · exact .of_bind .of_get fun draft => .of_bind (.of_modify _) fun _ => .of_pure _

end Steps

/-! References that are known are found -/

section References

variable {plan : Plan} {target : Id} {kind : NodeKind}

theorem Plan.Knows.found (knows : plan.Knows target kind) :
    ∃ reference file, plan.references.get? target = some reference ∧
      plan.graph.node? reference.file = some file ∧
      (∀ source via, Draft.referenceTo plan source target via = pure reference) ∧
      ∀ source, Draft.declaringFile plan source reference = pure file := by
  obtain ⟨reference, known, settled, _, placed⟩ := knows
  obtain ⟨file, found⟩ := Option.isSome_iff_exists.mp placed
  refine ⟨reference, file, known, found, fun source via => ?_, fun source => ?_⟩
  · unfold Draft.referenceTo
    rw [known]
    simp [settled]
  · unfold Draft.declaringFile
    rw [found]

theorem Plan.Knows.node_type_informed (knows : plan.Knows target kind) (view : View)
    (type : TypeKind) : (Draft.nodeType plan view type target).FailsAs Fault.Informed := by
  obtain ⟨reference, file, _, _, refers, declared⟩ := knows.found
  unfold Draft.nodeType Draft.foreignType
  refine .of_bind .of_get fun draft => ?_
  rw [refers, pure_bind]
  split
  · exact .of_bind (.of_on_part (.of_modify _)) fun _ => .of_pure _
  · refine .of_bind .of_get fun draft => ?_
    rw [declared, pure_bind]
    dsimp only
    split
    · exact .of_pure _
    · refine .of_bind (import_aliases_informed _ _ fun role member => ?_) fun _ => .of_pure _
      exact foreign_roles_drafted type view member

theorem Plan.Knows.superclass_informed (knows : plan.Knows target kind) (node : Node) :
    (Interface.superclass plan node target).FailsAs Fault.Informed := by
  obtain ⟨reference, file, _, _, refers, declared⟩ := knows.found
  unfold Interface.superclass
  refine .of_bind .of_get fun draft => ?_
  rw [refers, pure_bind]
  split
  · exact .of_bind (.of_on_part (.of_modify _)) fun _ => .of_pure _
  · rw [declared, pure_bind]
    refine .of_bind (import_aliases_informed _ _ fun role member => ?_) fun _ => .of_pure _
    simp only [List.mem_cons, List.not_mem_nil, or_false] at member
    rcases member with rfl | rfl <;> simp [draftedRoles]

theorem Writable.write_informed {type : SchemaType} (writable : Writable plan type) (view : View) :
    ((Draft.spelling plan view).write type).FailsAs Fault.Informed := by
  induction writable with
  | @primitive type isPrimitive =>
      obtain ⟨kind, element, target, brand, scope, index⟩ := type
      obtain ⟨text, known⟩ := Option.isSome_iff_exists.mp (primitive_type_known isPrimitive)
      have mapped : (Draft.spelling plan view).primitive kind = some text := known
      unfold Spelling.write
      rw [if_pos isPrimitive, mapped]
      exact .of_pure _
  | @list type element isList held _ induction =>
      obtain ⟨kind, _, target, brand, scope, index⟩ := type
      obtain rfl : kind = .list := isList
      obtain rfl : _ = some element := held
      unfold Spelling.write
      exact .of_bind induction fun _ => .of_pure _
  | @reference type kind refers knows =>
      obtain ⟨sort, element, target, brand, scope, index⟩ := type
      have written := knows.node_type_informed view sort
      unfold Spelling.write
      cases sort <;> first | exact written | cases refers
  | @erased type anything =>
      obtain ⟨kind, element, target, brand, scope, index⟩ := type
      unfold Spelling.write
      obtain rfl | rfl : kind = .anyPointer ∨ kind = .parameter := anything
      · exact .of_pure _
      · exact .of_pure _

theorem Writable.type_text_informed {type : SchemaType} (writable : Writable plan type) (view : View) :
    (Draft.typeText plan view (some type)).FailsAs Fault.Informed := by
  unfold Draft.typeText
  refine .of_bind (writable.write_informed view) fun text => ?_
  split
  · exact .of_bind (.of_modify _) fun _ => .of_pure _
  · exact .of_pure _

end References

/-! Drafts -/

section Drafts

variable {plan : Plan} {file : Id} {node : Node}

/-- A member that can be written: it is the body of a group that the stub presents, or its type is there
and is writable. -/
def Legible (plan : Plan) (file : Id) (member : Member) : Prop :=
  match member.group with
  | some body => Presents plan file body ∧ body.kind = .struct
  | none => ∃ type, member.field.type = some type ∧ Writable plan type

theorem Legible.type_informed {member : Member} (legible : Legible plan file member) (view : View) :
    (member.type plan view).FailsAs Fault.Informed := by
  unfold Legible at legible
  unfold Member.type
  split at legible
  · rename_i body group
    rw [group]
    exact .of_bind (internal_of_informed body) fun _ => .of_pure _
  · rename_i plain
    obtain ⟨type, typed, writable⟩ := legible
    rw [plain, typed]
    exact writable.type_text_informed view

theorem Toured.of_node_legible (toured : Toured plan) (presents : Presents plan file node)
    (isStruct : node.kind = .struct) :
    (∀ members, Member.ofNode plan.graph node = .ok members → ∀ member ∈ members,
      Legible plan file member) ∧
    ∀ fault, Member.ofNode plan.graph node = .error fault → fault.Informed := by
  let fit : Nat → Node → Prop := fun _ inner => Presents plan file inner ∧ inner.kind = .struct
  have start : fit (plan.graph.size + 1) node := ⟨presents, isStruct⟩
  refine of_node_from_fails .collision .unsupported (fun _ _ => .defect _) ?_ ?_ start
  · rintro bound inner ⟨presents, isStruct⟩ field listed plain
    have members := (Node.check_ok (toured.passed presents)).2.2.2
    obtain ⟨type, typed⟩ := Node.check_members_slot members isStruct listed plain
    exact ⟨type, typed, toured.writable presents (.slot isStruct listed plain typed)⟩
  · rintro bound inner ⟨presents, isStruct⟩ field listed isGroup
    have members := (Node.check_ok (toured.passed presents)).2.2.2
    obtain ⟨body, found, kind, _⟩ := Node.check_members_group members isStruct listed isGroup
    have inside : Presents plan file body := .body presents isStruct listed isGroup found
    exact ⟨body, found, ⟨inside, kind⟩, inside, kind⟩

/-- What stands inside a node that a stub presents is presented too, and is there. -/
theorem Toured.nested_presented (toured : Toured plan) (presents : Presents plan file node) {id : Id}
    (listed : id ∈ node.nested) :
    ∃ child, plan.graph.node? id = some child ∧ Presents plan file child := by
  obtain ⟨child, found, _⟩ :=
    Node.check_nested_ok ((Node.check_ok (toured.passed presents)).2.2.1 id listed)
  exact ⟨child, found, .nested presents listed found⟩

theorem Toured.declare_from_informed (toured : Toured plan) (bound : Nat)
    (presents : Presents plan file node) :
    (declareFrom plan bound node).FailsFrom (fun _ => True) Fault.Informed := by
  have frame := toured.frame
  induction bound generalizing node with
  | zero => exact .of_fail (.defect _)
  | succ bound induction =>
      have keeps := frame.declareFrom bound
      have keepsNested : ∀ node, (nestedDeclarations plan (declareFrom plan bound) node).Keeps
          fun _ => True := Frame.nestedDeclarations keeps
      have nested : ∀ {node}, Presents plan file node →
          (nestedDeclarations plan (declareFrom plan bound) node).FailsFrom (fun _ => True)
            Fault.Informed := by
        intro node presents
        refine Frame.nested_declarations_fails keeps fun id listed => ?_
        obtain ⟨child, found, inside⟩ := toured.nested_presented presents listed
        exact ⟨child, found, fun _ => induction inside⟩
      have struct : node.kind = .struct → (Struct.declare plan
          (nestedDeclarations plan (declareFrom plan bound)) (declareFrom plan bound) node).FailsFrom
            (fun _ => True) Fault.Informed := by
        intro isStruct
        obtain ⟨legible, refused⟩ := toured.of_node_legible presents isStruct
        refine frame.declare_struct_fails keepsNested keeps (.of_fails_as (internal_of_informed node))
          refused (fun _ => nested presents) (fun members flattened group listed => ?_)
          fun members flattened member inside view => .of_fails_as ?_
        · obtain ⟨member, inside, isBody⟩ := List.mem_filterMap.mp listed
          have legible := legible members flattened member inside
          unfold Legible at legible
          rw [isBody] at legible
          exact induction legible.1
        · exact (legible members flattened member inside).type_informed view
      unfold declareFrom
      dsimp only
      split
      · rename_i isGroup
        have isStruct := (Node.check_ok (toured.passed presents)).2.1 isGroup
        exact .of_bind (frame.declareStruct keepsNested keeps node) (struct isStruct) fun _ => .of_pure _
      · refine frame.declare_kind_fails (.unsupported _) keepsNested keeps struct (fun _ => ?_)
          (fun isInterface => ?_) fun isConst => .of_fails_as ?_
        · exact frame.declare_enum_fails (.of_fails_as (internal_of_informed node)) (.unsupported _)
        · refine frame.declare_interface_fails (fun _ _ => .collision _ _ _) keepsNested
            (.of_fails_as (internal_of_informed node)) (nested presents) (fun id listed => .of_fails_as ?_)
            fun method declared field member view => .of_fails_as ?_
          · exact (toured.knows_superclass presents isInterface listed).superclass_informed node
          · have members := (Node.check_ok (toured.passed presents)).2.2.2
            obtain ⟨type, typed⟩ := (Node.check_members_method members isInterface declared).2 field member
            rw [typed]
            exact (toured.writable presents (.argument isInterface declared member typed)).type_text_informed
              view
        · have members := (Node.check_ok (toured.passed presents)).2.2.2
          obtain ⟨type, typed⟩ := Node.check_members_const members isConst
          rw [typed]
          exact (toured.writable presents (.const isConst typed)).type_text_informed .reader

theorem any_pointer_informed (toured : Toured plan) :
    (AnyPointer.declare plan).FailsFrom (fun _ => True) Fault.Informed := by
  refine toured.frame.declare_any_pointer_fails fun node _ => .of_fails_as ?_
  unfold AnyPointer.target
  refine .of_bind .of_get fun draft => ?_
  split
  · exact .of_pure _
  · rename_i role isRole
    split
    · exact .of_pure _
    · refine .of_bind (internal_of_informed node) fun internal => .of_bind (.of_on_part ?_)
        fun _ => .of_pure _
      unfold Registry.getAlias
      refine .of_bind (get_aliases_informed _) fun names => ?_
      split
      · exact .of_pure _
      · rw [String.append_assoc]
        refine .of_fail (missing_informed ?_ _)
        unfold AnyPointer.castRole? at isRole
        split at isRole
        · cases isRole
          simp [draftedRoles]
        · split at isRole <;> cases isRole
          simp [draftedRoles]

theorem Toured.declare_file_informed (toured : Toured plan) :
    (declareFile plan).FailsAs Fault.Informed := by
  refine toured.frame.declare_file_fails .collision (fun draft _ node listed => ?_)
    (any_pointer_informed toured)
  refine toured.frame.declare_top_level_fails .collision (.unsupported _) fun _ => ?_
  exact toured.declare_from_informed _ (.top listed)

end Drafts

/-- After a walk that succeeded, no draft of a stub fails for want of a reference or over a type that
cannot be written, whatever the registry holds by then; and whatever a stub presents is written with
writable types, and has superclasses that are known as interfaces. -/
theorem drafts_know_references (options : Options) {entries : List (Option Node)}
    {requested : List Id} {graph : Graph} (built : Graph.build entries requested = .ok graph)
    {walk : Walk} {surveyed : Registry}
    (surveys : (survey graph graph.requested.eraseDups).Returns {} walk surveyed) (plan : Plan)
    (planned : plan = { graph, options, order := walk.order, references := walk.references }) :
    (declareFile plan).FailsAs Fault.Informed ∧
      ∀ file node, Presents plan file node →
        (∀ type, node.Writes type → Writable plan type) ∧
        (node.kind = .interface → ∀ id ∈ node.superclasses, plan.Knows id .interface) := by
  subst planned
  have toured := toured_of_survey options built surveys
  refine ⟨toured.declare_file_informed, fun file node presents => ⟨fun type writes => ?_, ?_⟩⟩
  · exact toured.writable presents writes
  · exact fun isInterface id listed => toured.knows_superclass presents isInterface listed

def coins : Node where
  id := 3
  kind := .struct
  isGroup := true
  scope := 2
  fields := [{
    name := "coins"
    kind := .slot
    type := some { kind := .list, element := some { kind := .enum, target := 6 } } }]

def clerk : Node where
  id := 4
  kind := .interface
  name := "Clerk"
  displayName := "Clerk"
  scope := 1
  superclasses := [7]

/-- A file with a struct, whose anonymous group lists values of an enum of another file, and with an
interface that extends one of that file. -/
def till : Graph where
  nodes := [
    { id := 1, kind := .file, name := "till", displayName := "till", nested := [2, 4] },
    { id := 2, kind := .struct, name := "Till", displayName := "Till", scope := 1,
      fields := [{ kind := .group, group := 3 }] },
    coins, clerk,
    { id := 5, kind := .file, name := "bank", displayName := "bank", nested := [6, 7] },
    { id := 6, kind := .enum, name := "Coin", displayName := "Coin", scope := 5,
      enumerants := ["cent"] },
    { id := 7, kind := .interface, name := "Teller", displayName := "Teller", scope := 5 }]
  requested := [1]

theorem drafts_know_references_till :
    ∃ plan : Plan, plan.graph = till ∧ (declareFile plan).FailsAs Fault.Informed ∧
      Presents plan 1 coins ∧ Writable plan { kind := .list, element := some { kind := .enum, target := 6 } } ∧
      Presents plan 1 clerk ∧ plan.Knows 7 .interface := by
  have built : Graph.build (till.nodes.map some) [1] = .ok till := rfl
  have seen : (((survey till till.requested.eraseDups).outcome {}).1.toOption.any
      fun walk => walk.order == [1, 2, 3, 6, 4, 7]) = true := by
    decide +kernel
  obtain ⟨walk, surveyed, surveys, shown⟩ := Step.Returns.of_any seen
  have order : walk.order = [1, 2, 3, 6, 4, 7] := by simpa using shown
  obtain ⟨informed, each⟩ := drafts_know_references {} built surveys _ rfl
  let plan : Plan := ⟨till, {}, walk.order, walk.references⟩
  have top : topLevelNodes plan 1 = [till.nodes[1], clerk] := by
    change ((walk.order.filterMap till.node?).filter _) = _
    rw [order]
    rfl
  have struct : Presents plan 1 till.nodes[1] := .top (top ▸ List.mem_cons_self)
  have inside : Presents plan 1 coins := .body struct rfl List.mem_cons_self rfl rfl
  have further : Presents plan 1 clerk := .top (top ▸ List.mem_cons_of_mem _ List.mem_cons_self)
  refine ⟨plan, rfl, informed, inside, ?_, further, ?_⟩
  · exact (each 1 coins inside).1 _ (.slot rfl List.mem_cons_self rfl rfl)
  · exact (each 1 clerk further).2 rfl 7 List.mem_cons_self

end Stub

end SchemaStubs
