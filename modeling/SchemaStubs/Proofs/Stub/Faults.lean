import SchemaStubs.Proofs.Stub.Failing
import SchemaStubs.Proofs.Stub.Ready

/-!
The failures of drafting. Where everything is there that a draft relies on, a draft fails for what the
schema says and for nothing else: no alias and no identifier is missed, no type is missing, and the
bounds of the searches are never reached.
-/

namespace SchemaStubs.Stub

open Generation

variable {plan : Plan} {registry : Registry} {file node : Node} {scopes : List Node}

section Types

/-- A type mentions nodes of other files only where these have aliases. -/
def Answered (plan : Plan) (registry : Registry) (file : Node) (via : Via) (type : SchemaType) :
    Prop :=
  ∀ target wanted, ⟨via, target, some wanted⟩ ∈ type.dependencies via →
    ∀ reference, plan.references.get? target = some reference → reference.file ≠ file.id →
      ∀ role ∈ kindRoles wanted, registry.Has { node := target } role

/-- What a node mentions outside brands, in a file other than its own, has aliases. -/
theorem Within.has_aliases (within : Within plan file node scopes) (ready : Ready plan registry)
    (home : plan.graph.GroupsStayHome) {via : Via} (shown : via ≠ .brand) {target : Id}
    {wanted : NodeKind} (listed : ⟨via, target, some wanted⟩ ∈ node.dependencies)
    {reference : Reference} (known : plan.references.get? target = some reference)
    (foreign : reference.file ≠ file.id) {role : Role} (inRole : role ∈ kindRoles wanted) :
    registry.Has { node := target } role := by
  obtain ⟨met, body, found, kind⟩ := within.of_target ready listed
  have sameId := Graph.id_of_node? found
  have named : plan.graph.isAnonymousGroup body = false := by
    by_contra anonymous
    have here := home node (Graph.mem_of_node? within.found) via target body shown
      (Node.mentions_of_mem_dependencies listed) found (by simpa using anonymous)
    obtain ⟨_, other, inOther, same⟩ := ready.located target reference known
    rw [within.inFile, inOther] at here
    cases here
    exact foreign same
  rw [← kind wanted rfl] at inRole
  have has := ready.has body (sameId.symm ▸ met) (sameId.symm ▸ found) named role inRole
  rwa [sameId] at has

theorem Within.answered (within : Within plan file node scopes) (ready : Ready plan registry)
    (home : plan.graph.GroupsStayHome) {via : Via} (shown : via ≠ .brand) {type : SchemaType}
    (listed : ∀ dependency ∈ type.dependencies via, dependency ∈ node.dependencies) :
    Answered plan registry file via type :=
  fun _ _ depends _ known foreign _ inRole =>
    within.has_aliases ready home shown (listed _ depends) known foreign inRole

theorem foreign_roles_subset {kind : TypeKind} {wanted : NodeKind} (refers : kind.target? = some wanted)
    {view : View} {role : Role} (member : role ∈ view.foreignRoles kind) : role ∈ kindRoles wanted := by
  cases kind <;> cases refers <;> cases view <;>
    simp_all [View.foreignRoles, kindRoles]

theorem reference_to_expected (source target : Id) (via : String) :
    (Draft.referenceTo plan source target via).FailsAs Fault.Expected := by
  unfold Draft.referenceTo
  split
  · exact .of_fail (.unresolved _ _ _)
  · split
    · exact .of_fail (.pending _)
    · exact .of_pure _

theorem declaring_file_expected (source : Id) (reference : Reference) :
    (Draft.declaringFile plan source reference).FailsAs Fault.Expected := by
  unfold Draft.declaringFile
  split
  · exact .of_pure _
  · exact .of_fail (.unresolved _ _ _)

/-- A draft that stands looks its aliases up in the registry of the run. -/
theorem get_aliases_answers {draft : Draft} (standing : Standing registry file draft)
    {subject : Subject} {role : Role} (has : registry.Has subject role) :
    (Registry.getAliases subject).outcome draft.registry =
      (.ok (registry.aliasesOf subject), draft.registry) := by
  have same : draft.registry.aliasesOf subject = registry.aliasesOf subject := by
    unfold Registry.aliasesOf
    rw [standing.aliases]
  obtain ⟨name, found⟩ := Registry.lookup_of_has has
  unfold Registry.getAliases
  rw [Step.outcome_bind, Registry.resolve_of_resolved standing.resolved]
  simp only [Step.outcome_bind, Step.outcome_get, same]
  split
  · rename_i none
    rw [none] at found
    cases found
  · rfl

theorem import_aliases_expected (target : Id) (declaring : Node) {roles : List Role}
    (present : roles ≠ []) (has : ∀ role ∈ roles, registry.Has { node := target } role) :
    (Draft.importAliases plan target declaring roles).FailsFrom (Standing registry file)
      Fault.Expected := by
  intro draft fault standing failed
  obtain ⟨role, rest, rfl⟩ := List.exists_cons_of_ne_nil present
  have names : (Draft.inRegistry (Registry.getAliases { node := target })).outcome draft =
      (.ok (registry.aliasesOf { node := target }), draft) := by
    unfold Draft.inRegistry
    rw [Step.outcome_on_part, get_aliases_answers standing (has role List.mem_cons_self)]
  unfold Draft.importAliases at failed
  dsimp only at failed
  rw [Step.outcome_bind, names] at failed
  -- no step after the aliases were found can fail
  have silent : ∀ names, ((role :: rest).mapM (Draft.importAlias plan declaring { node := target }
      (registry.aliasesOf { node := target }) names)).FailsFrom (fun _ => True) fun _ => False := by
    intro names
    refine .of_mapM (fun role _ _ _ => trivial) fun role member => ?_
    obtain ⟨name, found⟩ := Registry.lookup_of_has (has role member)
    unfold Draft.importAlias
    rw [found]
    refine .of_fails_as (.of_bind .of_get fun _ => .of_bind (.of_modify _) fun _ => .of_pure _)
  have locals : (Draft.localsOf { node := target } declaring.name
      (registry.aliasesOf { node := target })).FailsAs fun _ => False := by
    unfold Draft.localsOf
    refine .of_bind .of_get fun _ => ?_
    split
    · exact .of_pure _
    · exact .of_bind (.of_set _) fun _ => .of_pure _
  have never := Step.FailsFrom.of_bind (fun _ _ => trivial) (.of_fails_as locals) silent draft fault
    trivial failed
  exact never.elim

theorem foreign_type_expected {reference : Reference} {kind : TypeKind} {wanted : NodeKind}
    (refers : kind.target? = some wanted)
    (has : ∀ role ∈ kindRoles wanted, registry.Has { node := reference.target } role) (view : View) :
    (Draft.foreignType plan reference kind view).FailsFrom (Standing registry file)
      Fault.Expected := by
  unfold Draft.foreignType
  refine .of_get_bind fun draft _ => ?_
  refine .of_bind_returns (Writing.declaringFile _ _) (.of_fails_as (declaring_file_expected _ _))
    fun _ declaring _ _ _ => ?_
  dsimp only
  split
  · exact .of_pure _
  · rename_i present
    refine .of_bind (import_aliases_standing _ _ _ _ _ _) ?_ fun _ => .of_pure _
    refine import_aliases_expected _ _ (by simpa using present) fun role member => ?_
    exact has role (foreign_roles_subset refers member)

theorem node_type_expected (frame : Frame plan (Standing registry file)) {kind : TypeKind}
    {wanted : NodeKind} (refers : kind.target? = some wanted) {target : Id}
    (has : ∀ reference, plan.references.get? target = some reference → reference.file ≠ file.id →
      ∀ role ∈ kindRoles wanted, registry.Has { node := target } role) (view : View) :
    (Draft.nodeType plan view kind target).FailsFrom (Standing registry file) Fault.Expected := by
  unfold Draft.nodeType
  refine .of_get_bind fun draft standing => ?_
  refine .of_bind_returns (Writing.referenceTo _ _ _) (.of_fails_as (reference_to_expected _ _ _))
    fun before reference after _ returns => ?_
  have known := reference_to_returns returns
  have aimed := frame.targets target reference known
  rw [standing.ofFile]
  split
  · exact .of_bind (frame.markReferenced target) (.of_fails_as (.of_on_part (.of_modify _)))
      fun _ => .of_pure _
  · rename_i foreign
    exact foreign_type_expected refers (aimed ▸ has reference known foreign) view

theorem write_expected (frame : Frame plan (Standing registry file)) {via : Via} (view : View)
    (type : SchemaType) (answered : Answered plan registry file via type) :
    ((Draft.spelling plan view).write type).FailsFrom (Standing registry file) Fault.Expected := by
  match type with
  | ⟨kind, element, target, brand, scope, index⟩ =>
      have leaf : ∀ wanted, kind.target? = some wanted →
          (Draft.nodeType plan view kind target).FailsFrom (Standing registry file)
            Fault.Expected := by
        intro wanted refers
        refine node_type_expected frame refers (fun reference known foreign role inRole => ?_) view
        refine answered target wanted ?_ reference known foreign role inRole
        rw [SchemaType.dependencies_of_reference refers]
        exact List.mem_cons_self
      unfold Spelling.write
      split
      · rename_i primitive
        obtain ⟨text, known⟩ := Option.isSome_iff_exists.mp (primitive_type_known primitive)
        have mapped : (Draft.spelling plan view).primitive kind = some text := known
        rw [mapped]
        exact .of_pure _
      · split
        · split
          · exact .of_fail ⟨rfl, by simp, by simp⟩
          · rename_i element
            have inner : Answered plan registry file via element := by
              intro target wanted listed
              apply answered target wanted
              rwa [SchemaType.dependencies_of_list rfl rfl]
            exact .of_bind (frame.write view element) (write_expected frame view element inner)
              fun _ => .of_pure _
        · exact leaf _ rfl
        · exact leaf _ rfl
        · exact leaf _ rfl
        · exact .of_pure _
        · exact .of_pure _
        · exact .of_fail ⟨rfl, by simp, by simp⟩

theorem type_text_expected (frame : Frame plan (Standing registry file)) {via : Via}
    {type : SchemaType} (answered : Answered plan registry file via type) (view : View) :
    (Draft.typeText plan view (some type)).FailsFrom (Standing registry file) Fault.Expected := by
  unfold Draft.typeText
  refine .of_bind (frame.write view type) (write_expected frame view type answered) fun text => ?_
  split
  · exact .of_bind (.of_modify frame.anyPointer) (.of_modify _) fun _ => .of_pure _
  · exact .of_pure _

end Types

section Members

/-- A member can be written: it is the body of a group that stands further inside, or its type is
there and is answered. -/
def Shown (plan : Plan) (registry : Registry) (file : Node) (depth : Nat) (member : Member) : Prop :=
  match member.group with
  | some body => body.kind = .struct ∧ body.isGroup = true ∧
      ∃ scopes, Within plan file body scopes ∧ depth < scopes.length
  | none => ∃ type, member.field.type = some type ∧ Answered plan registry file .field type

/-- The members of a struct that come out are shown, and if they do not, then for what the schema
says. -/
theorem of_node_from_shown (ready : Ready plan registry) (home : plan.graph.GroupsStayHome)
    {bound : Nat} (within : Within plan file node scopes) (isStruct : node.kind = .struct)
    (room : plan.graph.size < bound + scopes.length) :
    (∀ members, Member.ofNodeFrom plan.graph bound node = .ok members →
      ∀ member ∈ members, Shown plan registry file scopes.length member) ∧
    ∀ fault, Member.ofNodeFrom plan.graph bound node = .error fault → fault.Expected := by
  -- the bodies of groups stand further inside, and there is room for as many as there can be
  let fit : Nat → Node → Prop := fun bound inner => inner.kind = .struct ∧ ∃ deeper,
    Within plan file inner deeper ∧ scopes.length ≤ deeper.length ∧ plan.graph.size < bound + deeper.length
  have start : fit bound node := ⟨isStruct, scopes, within, le_rfl, room⟩
  refine of_node_from_fails .collision .unsupported ?_ ?_ ?_ start
  · rintro inner ⟨_, deeper, within, _, room⟩
    have short := within.short
    omega
  · rintro bound inner ⟨isStruct, deeper, within, _, _⟩ field listed plain
    obtain ⟨type, typed⟩ := Node.check_members_slot (within.members ready) isStruct listed plain
    refine ⟨type, typed, within.answered ready home (by decide) fun dependency depends => ?_⟩
    apply List.mem_append_right
    rw [Node.memberDependencies, isStruct]
    apply List.mem_flatMap.mpr
    exact ⟨field, listed, by simpa [Field.dependencies, plain, Field.typeDependencies, typed]⟩
  · rintro bound inner ⟨_, deeper, within, further, room⟩ field listed isGroup
    obtain ⟨body, found, kind, group, inside⟩ := within.groupBody ready listed isGroup
    have room' : plan.graph.size < bound + (inner :: deeper).length := by
      simp only [List.length_cons]
      omega
    refine ⟨body, found, ⟨kind, _, inside, ?_, room'⟩, kind, group, _, inside, ?_⟩ <;>
      simp only [List.length_cons] <;> omega

theorem internal_of_expected (ready : Ready plan registry) (met : node.id ∈ plan.order)
    (found : plan.graph.node? node.id = some node) (module : node.kind.hasModule = true) :
    (Draft.internalOf node).FailsFrom (Standing registry file) Fault.Expected := by
  obtain ⟨internal, held, _, present⟩ := ready.identified node met found module
  intro draft fault standing failed
  unfold Draft.internalOf at failed
  simp [Step.outcome_bind, standing.internal?, held, present] at failed

end Members

section Views

variable {members : List Member} {depth : Nat}

theorem member_type_expected (ready : Ready plan registry)
    (frame : Frame plan (Standing registry file)) {member : Member}
    (shown : Shown plan registry file depth member) (view : View) :
    (member.type plan view).FailsFrom (Standing registry file) Fault.Expected := by
  unfold Shown at shown
  unfold Member.type
  split at shown
  · rename_i body group
    obtain ⟨kind, _, scopes, within, _⟩ := shown
    rw [group]
    refine .of_bind (Writing.internalOf body)
      (internal_of_expected ready within.met within.found (by rw [kind]; rfl)) fun _ => .of_pure _
  · rename_i plain
    obtain ⟨type, typed, answered⟩ := shown
    rw [plain, typed]
    exact type_text_expected frame answered view

end Views

section Methods

variable (frame : Frame plan (Standing registry file))

def Typed (plan : Plan) (registry : Registry) (file : Node) (fields : List Field) : Prop :=
  ∀ field ∈ fields, ∃ via type, field.type = some type ∧ Answered plan registry file via type

include frame

theorem field_type_expected {fields : List Field} (typed : Typed plan registry file fields)
    {field : Field} (member : field ∈ fields) (view : View) :
    (Draft.typeText plan view field.type).FailsFrom (Standing registry file) Fault.Expected := by
  obtain ⟨via, type, present, answered⟩ := typed field member
  rw [present]
  exact type_text_expected frame answered view

theorem superclass_expected (node : Node) {id : Id}
    (has : ∀ reference, plan.references.get? id = some reference → reference.file ≠ file.id →
      ∀ role ∈ kindRoles .interface, registry.Has { node := id } role) :
    (Interface.superclass plan node id).FailsFrom (Standing registry file) Fault.Expected := by
  unfold Interface.superclass
  refine .of_get_bind fun draft standing => ?_
  refine .of_bind_returns (Writing.referenceTo _ _ _) (.of_fails_as (reference_to_expected _ _ _))
    fun before reference after _ returns => ?_
  have known := reference_to_returns returns
  rw [standing.ofFile]
  split
  · exact .of_bind (frame.markReferenced id) (.of_fails_as (.of_on_part (.of_modify _)))
      fun _ => .of_pure _
  · rename_i foreign
    refine .of_bind_returns (Writing.declaringFile _ _) (.of_fails_as (declaring_file_expected _ _))
      fun _ declaring _ _ _ => ?_
    refine .of_bind (import_aliases_standing _ _ _ _ _ _) ?_ fun _ => .of_pure _
    exact import_aliases_expected id declaring (by simp) (has reference known foreign)

end Methods

end SchemaStubs.Stub
