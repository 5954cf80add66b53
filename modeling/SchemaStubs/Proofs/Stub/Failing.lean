import SchemaStubs.Proofs.Stub.Frame

/-!
How drafting fails. A draft is put together from steps that write types, look for identifiers and
declare what stands further inside. Where these fail in certain ways only, so does all that is made
from them.
-/

namespace SchemaStubs.Stub

variable {plan : Plan} {invariant : Draft → Prop} {faults : Fault → Prop}

theorem primitive_type_known {kind : TypeKind} (primitive : kind.isPrimitive = true) :
    (primitiveType kind).isSome = true := by
  cases kind <;> first | rfl | cases primitive

theorem check_names_fails (collides : ∀ name one two, faults (Cause.nameCollision name one two))
    {seen : List (String × Id)} {members : List Member} {fault : Fault}
    (failed : Member.checkNames seen members = .error fault) : faults fault := by
  induction members generalizing seen with
  | nil => cases failed
  | cons member rest induction =>
      unfold Member.checkNames at failed
      split at failed
      · cases failed
        exact collides _ _ _
      · exact induction failed

/-- How the members of a struct are found: a property of the members that the fields of one node stand
for is one of all that come out. `fit` tells which nodes are come to with how much of the bound left. -/
theorem of_node_from_fails {graph : Graph} {fit : Nat → Node → Prop} {property : Member → Prop}
    (collides : ∀ name one two, faults (Cause.nameCollision name one two))
    (unsupported : ∀ id kind reason, faults (Cause.unsupportedNode id kind reason))
    (endless : ∀ node, fit 0 node → faults (Defect.endlessGroup node.id))
    (slot : ∀ bound node, fit (bound + 1) node → ∀ field ∈ node.fields, field.isGroup = false →
      property { field, owner := node })
    (group : ∀ bound node, fit (bound + 1) node → ∀ field ∈ node.fields, field.isGroup = true →
      ∃ body, graph.node? field.group = some body ∧ fit bound body ∧
        property { field, owner := node, group := some body })
    {bound : Nat} {node : Node} (fits : fit bound node) :
    (∀ members, Member.ofNodeFrom graph bound node = .ok members → ∀ member ∈ members, property member) ∧
      ∀ fault, Member.ofNodeFrom graph bound node = .error fault → faults fault := by
  induction bound generalizing node with
  | zero =>
      refine ⟨fun members passed => (nomatch passed), ?_⟩
      rintro fault ⟨⟩
      exact endless node fits
  | succ bound induction =>
      -- a field stands for its own member, or for those of the anonymous group that is its body
      have each : ∀ field ∈ node.fields,
          (∀ members, Member.ofField graph (Member.ofNodeFrom graph bound) node field = .ok members →
            ∀ member ∈ members, property member) ∧
            ∀ fault, Member.ofField graph (Member.ofNodeFrom graph bound) node field = .error fault →
              faults fault := by
        intro field listed
        unfold Member.ofField
        by_cases isGroup : field.isGroup = true
        · obtain ⟨body, found, inside, held⟩ := group bound node fits field listed isGroup
          rw [if_neg (by simp [isGroup]), found]
          dsimp only
          split
          · refine ⟨?_, fun fault failed => nomatch failed⟩
            rintro members ⟨⟩ member single
            cases List.mem_singleton.mp single
            exact held
          · split
            · refine ⟨fun members passed => (nomatch passed), ?_⟩
              rintro fault ⟨⟩
              exact unsupported _ _ _
            · exact induction inside
        · rw [if_pos (by simp [isGroup])]
          refine ⟨?_, fun fault failed => nomatch failed⟩
          rintro members ⟨⟩ member single
          cases List.mem_singleton.mp single
          exact slot bound node fits field listed (by simpa using isGroup)
      unfold Member.ofNodeFrom
      constructor
      · intro members passed
        rw [except_bind_ok] at passed
        obtain ⟨blocks, made, passed⟩ := passed
        rw [except_bind_ok] at passed
        obtain ⟨_, _, same⟩ := passed
        cases same
        intro member inside
        obtain ⟨block, inBlocks, inBlock⟩ := List.mem_flatten.mp inside
        obtain ⟨field, listed, made⟩ := except_mapM_mem made inBlocks
        exact (each field listed).1 block made member inBlock
      · intro fault failed
        rcases except_bind_error failed with failed | ⟨blocks, made, failed⟩
        · obtain ⟨field, listed, failed⟩ := except_mapM_error failed
          exact (each field listed).2 fault failed
        · rcases except_bind_error failed with failed | ⟨_, _, failed⟩
          · exact check_names_fails collides failed
          · cases failed

namespace Writing

section Members

variable {members : List Member} (writing : Writing plan invariant)
  (typed : ∀ member ∈ members, ∀ view, (member.type plan view).FailsFrom invariant faults)

include writing typed

theorem dict_view_fails : (Struct.dictView plan members).FailsFrom invariant faults := by
  refine .of_bind (.of_mapM fun member _ => ?_) (.of_mapM (fun member _ => ?_)
    fun member inside => ?_) fun _ => .of_pure _
  · exact .of_bind (writing.memberType .dict member) fun _ => .of_pure _
  · exact .of_bind (writing.memberType .dict member) fun _ => .of_pure _
  · exact .of_bind (writing.memberType .dict member) (typed member inside .dict) fun _ => .of_pure _

theorem reader_view_fails (node : Node) (internal : String) :
    (Struct.readerView plan node internal members).FailsFrom invariant faults := by
  refine .of_bind (.of_mapM fun member _ => ?_) (.of_mapM (fun member _ => ?_)
    fun member inside => ?_) fun _ => .of_pure _
  · exact .of_bind (writing.memberType .reader member) fun _ => .of_pure _
  · exact .of_bind (writing.memberType .reader member) fun _ => .of_pure _
  · exact .of_bind (writing.memberType .reader member) (typed member inside .reader)
      fun _ => .of_pure _

theorem builder_view_fails (node : Node) (internal : String) :
    (Struct.builderView plan node internal members).FailsFrom invariant faults := by
  have accessors : ∀ member ∈ members,
      (Struct.accessors plan member).FailsFrom invariant faults := by
    intro member inside
    refine .of_bind (writing.memberType .builder member) (typed member inside .builder) fun _ => ?_
    dsimp only
    split
    · exact .of_pure _
    · exact .of_bind (writing.memberType .setter member) (typed member inside .setter)
        fun _ => .of_pure _
  have initializer : ∀ member ∈ members,
      (Struct.initializer plan member).FailsFrom invariant faults := by
    intro member inside
    unfold Struct.initializer
    dsimp only
    have built := writing.memberType .builder member
    split
    · exact .of_bind built (typed member inside .builder) fun _ => .of_pure _
    · split
      · exact .of_bind built (typed member inside .builder) fun _ => .of_pure _
      · exact .of_pure _
  have initializers : (Struct.initializers plan members).FailsFrom invariant faults :=
    .of_bind (.of_mapM fun member _ => writing.initializer member)
      (.of_mapM (fun member _ => writing.initializer member) initializer) fun _ => .of_pure _
  refine .of_bind (.of_mapM fun member _ => writing.accessors member)
    (.of_mapM (fun member _ => writing.accessors member) accessors) fun _ => ?_
  refine .of_bind (.of_bind (.of_mapM fun member _ => writing.initializer member)
    fun _ => .of_pure _) initializers fun _ => .of_pure _

theorem views_fails (node : Node) (internal : String) :
    (Struct.views plan node internal members).FailsFrom invariant faults := by
  refine .of_bind (writing.dictView members) (writing.dict_view_fails typed) fun _ => ?_
  refine .of_bind (writing.readerView node internal members)
    (writing.reader_view_fails typed node internal) fun _ => ?_
  exact .of_bind (writing.builderView node internal members)
    (writing.builder_view_fails typed node internal) fun _ => .of_pure _

theorem new_message_fails (internal : String) :
    (Struct.newMessage plan internal members).FailsFrom invariant faults := by
  refine .of_bind (.of_mapM fun member _ => ?_) (.of_mapM (fun member _ => ?_)
    fun member inside => ?_) fun _ => .of_pure _
  · exact .of_bind (writing.memberType .setter member) fun _ => .of_pure _
  · exact .of_bind (writing.memberType .setter member) fun _ => .of_pure _
  · exact .of_bind (writing.memberType .setter member) (typed member inside .setter)
      fun _ => .of_pure _

end Members

section Methods

variable (writing : Writing plan invariant)

include writing

theorem protocol_fails (name : String) {fields : List Field}
    (typed : ∀ field ∈ fields, ∀ view, (Draft.typeText plan view field.type).FailsFrom invariant faults) :
    (Interface.protocol plan name fields).FailsFrom invariant faults := by
  refine .of_bind (.of_mapM fun field _ => ?_) (.of_mapM (fun field _ => ?_)
    fun field member => ?_) fun _ => .of_pure _
  · exact .of_bind (writing.typeText .reader field.type) fun _ => .of_pure _
  · exact .of_bind (writing.typeText .reader field.type) fun _ => .of_pure _
  · exact .of_bind (writing.typeText .reader field.type) (typed field member .reader)
      fun _ => .of_pure _

/-- What a method adds fails as the types of its parameters and results do. -/
theorem surface_fails (internal : String) {method : Method}
    (typed : ∀ field ∈ method.params ++ method.results, ∀ view,
      (Draft.typeText plan view field.type).FailsFrom invariant faults) :
    (Interface.surface plan internal method).FailsFrom invariant faults := by
  have params := fun field inside => typed field (List.mem_append_left _ inside)
  have results := fun field inside => typed field (List.mem_append_right _ inside)
  have keepsProtocols : ∀ stem,
      (Interface.protocols plan internal stem method).Keeps invariant := fun stem =>
    .of_bind (writing.protocol _ _) fun _ => .of_bind (writing.protocol _ _) fun _ => .of_pure _
  have protocols : ∀ stem, (Interface.protocols plan internal stem method).FailsFrom invariant faults :=
    fun stem =>
      .of_bind (writing.protocol _ _) (writing.protocol_fails _ params) fun _ =>
        .of_bind (writing.protocol _ _) (writing.protocol_fails _ results) fun _ => .of_pure _
  have client : ∀ stem,
      (Interface.clientMethod plan internal stem method).FailsFrom invariant faults := by
    intro stem
    refine .of_bind (.of_mapM fun field _ => ?_) (.of_mapM (fun field _ => ?_)
      fun field member => ?_) fun _ => .of_pure _
    · exact .of_bind (writing.typeText .setter field.type) fun _ => .of_pure _
    · exact .of_bind (writing.typeText .setter field.type) fun _ => .of_pure _
    · exact .of_bind (writing.typeText .setter field.type) (params field member .setter)
        fun _ => .of_pure _
  have server : ∀ stem,
      (Interface.serverMethods plan internal stem method).FailsFrom invariant faults := by
    intro stem
    refine .of_bind (.of_mapM fun field _ => ?_) (.of_mapM (fun field _ => ?_)
      fun field member => ?_) fun _ => ?_
    · exact .of_bind (writing.typeText .reader field.type) fun _ => .of_pure _
    · exact .of_bind (writing.typeText .reader field.type) fun _ => .of_pure _
    · exact .of_bind (writing.typeText .reader field.type) (params field member .reader)
        fun _ => .of_pure _
    · refine .of_bind (.of_mapM fun field _ => writing.typeText .setter field.type) ?_
        fun _ => .of_pure _
      exact .of_mapM (fun field _ => writing.typeText .setter field.type)
        fun field member => results field member .setter
  refine .of_bind (keepsProtocols _) (protocols _) fun _ => ?_
  refine .of_bind (writing.clientMethod internal _ method) (client _) fun _ => ?_
  exact .of_bind (writing.serverMethods internal _ method) (server _) fun _ => .of_pure _

theorem surfaces_fails (collides : ∀ name id, faults (Cause.nameCollision name id id)) (node : Node)
    (internal : String) {methods : List Method}
    (typed : ∀ method ∈ methods, ∀ field ∈ method.params ++ method.results, ∀ view,
      (Draft.typeText plan view field.type).FailsFrom invariant faults) (stems : List String) :
    (Interface.surfaces plan node internal stems methods).FailsFrom invariant faults := by
  induction methods generalizing stems with
  | nil => exact .of_pure _
  | cons method rest induction =>
      unfold Interface.surfaces
      dsimp only
      split
      · exact .of_fail (collides _ _)
      · refine .of_bind (writing.surface internal method)
          (writing.surface_fails internal (typed method List.mem_cons_self)) fun _ => ?_
        refine .of_bind (writing.surfaces node internal _ rest) (induction (fun other member => ?_) _)
          fun _ => .of_pure _
        exact typed other (List.mem_cons_of_mem _ member)

theorem bases_fails {node : Node}
    (superclasses : ∀ id ∈ node.superclasses,
      (Interface.superclass plan node id).FailsFrom invariant faults) :
    (Interface.bases plan node).FailsFrom invariant faults := by
  unfold Interface.bases
  split
  · exact .of_pure _
  · refine .of_bind (.of_mapM fun id _ => writing.superclass node id) ?_ fun _ => .of_pure _
    exact .of_mapM (fun id _ => writing.superclass node id) superclasses

end Methods

end Writing

namespace Frame

variable {node : Node} {nested body : Node → Step Draft (List Declaration)}
  (frame : Frame plan invariant)

include frame

/-- The class of a struct fails as its members, what is nested in it, the bodies of its groups and the
types of its members do. -/
theorem declare_struct_fails (keepsNested : ∀ node, (nested node).Keeps invariant)
    (keepsBody : ∀ node, (body node).Keeps invariant)
    (internal : (Draft.internalOf node).FailsFrom invariant faults)
    (refused : ∀ fault, Member.ofNode plan.graph node = .error fault → faults fault)
    (inner : node.isGroup = false → (nested node).FailsFrom invariant faults)
    (bodies : ∀ members, Member.ofNode plan.graph node = .ok members →
      ∀ group ∈ members.filterMap Member.group, (body group).FailsFrom invariant faults)
    (typed : ∀ members, Member.ofNode plan.graph node = .ok members →
      ∀ member ∈ members, ∀ view, (member.type plan view).FailsFrom invariant faults) :
    (Struct.declare plan nested body node).FailsFrom invariant faults := by
  unfold Struct.declare
  refine .of_bind (Writing.internalOf node) internal fun internal => ?_
  refine .of_bind (frame.markDeclared node.id) (.of_fails_as (.of_on_part (.of_modify _))) fun _ => ?_
  refine .of_check refused fun members flattened => ?_
  refine .of_ite_bind (.of_pure _) (keepsNested node) (fun _ => .of_pure _)
    (fun single => inner (by simpa using single)) fun inner => ?_
  refine .of_bind (.of_mapM fun group _ => keepsBody group)
    (.of_mapM (fun group _ => keepsBody group) (bodies members flattened)) fun groups => ?_
  refine .of_bind (frame.views node internal members)
    (frame.views_fails (typed members flattened) node internal) fun views => ?_
  dsimp only
  split
  · exact .of_pure _
  · exact .of_bind (frame.newMessage internal members)
      (frame.new_message_fails (typed members flattened) internal) fun _ => .of_pure _

theorem declare_enum_fails (internal : (Draft.internalOf node).FailsFrom invariant faults)
    (bare : ∀ kind reason, faults (Cause.unsupportedNode node.id kind reason)) :
    (Enum.declare node).FailsFrom invariant faults := by
  unfold Enum.declare
  split
  · exact .of_fail (bare _ _)
  · refine .of_bind (Writing.internalOf node) internal fun internal => ?_
    exact .of_bind (frame.markDeclared node.id) (.of_fails_as (.of_on_part (.of_modify _)))
      fun _ => .of_pure _

theorem declare_interface_fails (collides : ∀ name id, faults (Cause.nameCollision name id id))
    (keepsNested : ∀ node, (nested node).Keeps invariant)
    (internal : (Draft.internalOf node).FailsFrom invariant faults)
    (inner : (nested node).FailsFrom invariant faults)
    (superclasses : ∀ id ∈ node.superclasses,
      (Interface.superclass plan node id).FailsFrom invariant faults)
    (typed : ∀ method ∈ node.methods, ∀ field ∈ method.params ++ method.results, ∀ view,
      (Draft.typeText plan view field.type).FailsFrom invariant faults) :
    (Interface.declare plan nested node).FailsFrom invariant faults := by
  refine .of_bind (Writing.internalOf node) internal fun internal => ?_
  refine .of_bind (frame.markDeclared node.id) (.of_fails_as (.of_on_part (.of_modify _))) fun _ => ?_
  refine .of_bind (keepsNested node) inner fun _ => ?_
  refine .of_bind (frame.bases node) (frame.bases_fails superclasses) fun _ => ?_
  exact .of_bind (frame.surfaces node internal [] node.methods)
    (frame.surfaces_fails collides node internal typed []) fun _ => .of_pure _

omit frame in
/-- Nested declarations are looked up; groups among them are passed over. -/
theorem nested_declarations_fails {declare : Node → Step Draft (List Declaration)}
    (keeps : ∀ node, (declare node).Keeps invariant)
    (each : ∀ id ∈ node.nested, ∃ child, plan.graph.node? id = some child ∧
      (child.isGroup = false → (declare child).FailsFrom invariant faults)) :
    (Stub.nestedDeclarations plan declare node).FailsFrom invariant faults := by
  have keepsEach : ∀ id, (Stub.nestedDeclaration plan declare node id).Keeps invariant :=
    Frame.nestedDeclaration keeps node
  rw [nested_declarations_eq]
  refine .of_bind (.of_mapM fun id _ => keepsEach id) (.of_mapM (fun id _ => keepsEach id)
    fun id listed => ?_) fun _ => .of_pure _
  obtain ⟨child, found, fails⟩ := each id listed
  unfold Stub.nestedDeclaration
  rw [found]
  dsimp only
  split
  · exact .of_pure _
  · rename_i single
    exact fails (by simpa using single)

theorem declare_kind_fails (unshaped : ∀ kind reason, faults (Cause.unsupportedNode node.id kind reason))
    (keepsNested : ∀ node, (nested node).Keeps invariant)
    (keepsBody : ∀ node, (body node).Keeps invariant)
    (struct : node.kind = .struct → (Struct.declare plan nested body node).FailsFrom invariant faults)
    (enum : node.kind = .enum → (Enum.declare node).FailsFrom invariant faults)
    (interface : node.kind = .interface →
      (Interface.declare plan nested node).FailsFrom invariant faults)
    (const : node.kind = .const →
      (Draft.typeText plan .reader node.constType).FailsFrom invariant faults) :
    (Stub.declareKind plan nested body node).FailsFrom invariant faults := by
  refine .of_bind (frame.note _) (.of_fails_as (.of_on_part (.of_modify _))) fun _ => ?_
  split
  · rename_i isStruct
    exact .of_bind (frame.declareStruct keepsNested keepsBody node) (struct isStruct) fun _ => .of_pure _
  · rename_i isEnum
    exact .of_bind (frame.declareEnum node) (enum isEnum) fun _ => .of_pure _
  · rename_i isInterface
    exact .of_bind (frame.declareInterface keepsNested node) (interface isInterface)
      fun _ => .of_pure _
  · rename_i isConst
    have written := frame.typeText .reader node.constType
    exact .of_bind (.of_bind written fun _ => .of_pure _)
      (.of_bind written (const isConst) fun _ => .of_pure _) fun _ => .of_pure _
  · exact .of_pure _
  · exact .of_fail (unshaped _ _)
  · exact .of_fail (unshaped _ _)

theorem declare_any_pointer_fails
    (targets : ∀ node ∈ plan.nodes, (AnyPointer.target plan node).FailsFrom invariant faults) :
    (AnyPointer.declare plan).FailsFrom invariant faults :=
  .of_bind frame.anyPointerTargets
    (.of_bind (.of_mapM fun node _ => frame.anyPointerTarget node)
      (.of_mapM (fun node _ => frame.anyPointerTarget node) targets) fun _ => .of_pure _)
    fun _ => .of_pure _

end Frame

theorem bind_fails (collides : ∀ name one two, faults (Cause.nameCollision name one two)) (name : String)
    (owner : Id) : (Draft.bind name owner).FailsAs faults := by
  have binds : ∀ bindings fault, Import.bind name owner bindings = .error fault → faults fault := by
    intro bindings fault failed
    unfold Import.bind at failed
    split at failed
    · split at failed
      · cases failed
      · cases failed
        exact collides _ _ _
    · cases failed
  unfold Draft.bind
  exact .of_bind .of_get fun draft => .of_check (binds _) fun _ _ => .of_set _

namespace Frame

variable (frame : Frame plan invariant)

include frame

/-- A declaration at the top level fails as the declaration does, or for a name. -/
theorem declare_top_level_fails {node : Node}
    (collides : ∀ name one two, faults (Cause.nameCollision name one two))
    (misplaced : ∀ kind reason, faults (Cause.unsupportedNode node.id kind reason))
    (declares : node.isGroup = false →
      (Stub.declareFrom plan (plan.graph.size + 1) node).FailsFrom invariant faults) :
    (Stub.declareTopLevel plan node).FailsFrom invariant faults := by
  have declared : (Stub.declareNode plan node).FailsFrom invariant faults := by
    unfold Stub.declareNode
    split
    · refine .of_bind (frame.note _) (.of_fails_as (.of_on_part (.of_modify _))) fun _ => ?_
      exact .of_fail (misplaced _ _)
    · rename_i single
      exact declares (by simpa using single)
  have binds : ∀ declaration, (Stub.bindTopLevel node declaration).FailsFrom invariant faults := by
    intro declaration
    unfold Stub.bindTopLevel
    refine .of_fails_as ?_
    split
    · exact .of_bind (bind_fails collides _ _) fun _ => .of_pure _
    · exact .of_bind (bind_fails collides _ _) fun _ =>
        .of_bind (bind_fails collides _ _) fun _ => .of_pure _
    · exact .of_pure _
  refine .of_bind (frame.declareNode node) declared fun declarations => ?_
  refine .of_bind (.of_mapM fun declaration _ => frame.bindTopLevel node declaration) ?_
    fun _ => .of_pure _
  exact .of_mapM (fun declaration _ => frame.bindTopLevel node declaration)
    fun declaration _ => binds declaration

/-- The declarations of a stub fail as those of its top level do, or as the class for pointers to
anything does. -/
theorem declare_file_fails (collides : ∀ name one two, faults (Cause.nameCollision name one two))
    (each : ∀ draft, invariant draft → ∀ node ∈ topLevelNodes plan draft.file.id,
      (Stub.declareTopLevel plan node).FailsFrom invariant faults)
    (anyPointer : (AnyPointer.declare plan).FailsFrom invariant faults) :
    (Stub.declareFile plan).FailsFrom invariant faults := by
  refine .of_get_bind fun draft start => ?_
  refine .of_bind (.of_mapM fun node _ => frame.declareTopLevel node)
    (.of_mapM (fun node _ => frame.declareTopLevel node) (each draft start)) fun blocks => ?_
  refine .of_get_bind fun reached _ => ?_
  split
  · refine .of_bind (frame.bind _ _) (.of_fails_as (bind_fails collides _ _)) fun _ => ?_
    exact .of_bind frame.declareAnyPointer anyPointer fun _ => .of_pure _
  · exact .of_pure _

end Frame

end SchemaStubs.Stub
