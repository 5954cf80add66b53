import SchemaStubs.Proofs.Stub.Faults

/-!
The failures of a run. In a well-scoped graph without two methods of one name, no step of a run
meets a state it does not expect: what a run cannot do, it reports as something that is wrong with
the schema.
-/

namespace SchemaStubs.Stub

open Generation

variable {plan : Plan} {registry : Registry} {file node : Node} {scopes : List Node}

section Declarations

variable (ready : Ready plan registry) (home : plan.graph.GroupsStayHome)
  (frame : Frame plan (Standing registry file))

include ready home

theorem Within.methodTyped (within : Within plan file node scopes)
    (isInterface : node.kind = .interface) {method : Method} (member : method ∈ node.methods) :
    Typed plan registry file method.params ∧ Typed plan registry file method.results := by
  have typed := (Node.check_members_method (within.members ready) isInterface member).2
  constructor
  · intro field inParams
    obtain ⟨type, present⟩ := typed field (List.mem_append_left _ inParams)
    refine ⟨.param, type, present, within.answered ready home (by decide) fun _ depends => ?_⟩
    apply Node.mem_dependencies_of_method isInterface member
    apply List.mem_append_left
    exact List.mem_flatMap.mpr ⟨field, inParams, by simpa [Field.typeDependencies, present]⟩
  · intro field inResults
    obtain ⟨type, present⟩ := typed field (List.mem_append_right _ inResults)
    refine ⟨.result, type, present, within.answered ready home (by decide) fun _ depends => ?_⟩
    apply Node.mem_dependencies_of_method isInterface member
    apply List.mem_append_right
    exact List.mem_flatMap.mpr ⟨field, inResults, by simpa [Field.typeDependencies, present]⟩

include frame

theorem declare_struct_expected (within : Within plan file node scopes)
    (isStruct : node.kind = .struct) {nested body : Node → Step Draft (List Declaration)}
    (keepsNested : ∀ node, (nested node).Keeps (Standing registry file))
    (keepsBody : ∀ node, (body node).Keeps (Standing registry file))
    (inner : (nested node).FailsFrom (Standing registry file) Fault.Expected)
    (bodies : ∀ group around, Within plan file group around → scopes.length < around.length →
      (body group).FailsFrom (Standing registry file) Fault.Expected) :
    (Struct.declare plan nested body node).FailsFrom (Standing registry file) Fault.Expected := by
  have module : node.kind.hasModule = true := by
    rw [isStruct]
    rfl
  have room : plan.graph.size < plan.graph.size + 1 + scopes.length := by omega
  obtain ⟨flattens, refuses⟩ := of_node_from_shown ready home within isStruct room
  refine frame.declare_struct_fails keepsNested keepsBody
    (internal_of_expected ready within.met within.found module) refuses (fun _ => inner) ?_
    fun members flattened member inside view =>
      member_type_expected ready frame (flattens members flattened member inside) view
  intro members flattened group listed
  obtain ⟨member, inside, isBody⟩ := List.mem_filterMap.mp listed
  have stands := flattens members flattened member inside
  unfold Shown at stands
  rw [isBody] at stands
  obtain ⟨_, _, around, within, deeper⟩ := stands
  exact bodies group around within deeper

theorem declare_interface_expected (within : Within plan file node scopes)
    (isInterface : node.kind = .interface) {nested : Node → Step Draft (List Declaration)}
    (keepsNested : ∀ node, (nested node).Keeps (Standing registry file))
    (inner : (nested node).FailsFrom (Standing registry file) Fault.Expected) :
    (Interface.declare plan nested node).FailsFrom (Standing registry file) Fault.Expected := by
  have module : node.kind.hasModule = true := by
    rw [isInterface]
    rfl
  refine frame.declare_interface_fails (fun name id => .collision name id id) keepsNested
    (internal_of_expected ready within.met within.found module) inner ?_ ?_
  · intro id listed
    apply superclass_expected frame
    intro reference known foreign role inRole
    have shown : Via.superclass ≠ .brand := by decide
    refine within.has_aliases ready home shown ?_ known foreign inRole
    apply List.mem_append_right
    rw [Node.memberDependencies, isInterface]
    exact List.mem_append_left _ (List.mem_map_of_mem listed)
  · intro method member field listed view
    obtain ⟨params, results⟩ := within.methodTyped ready home isInterface member
    rcases List.mem_append.mp listed with inParams | inResults
    · exact field_type_expected frame params inParams view
    · exact field_type_expected frame results inResults view

theorem const_type_expected (within : Within plan file node scopes) (isConst : node.kind = .const) :
    (Draft.typeText plan .reader node.constType).FailsFrom (Standing registry file)
      Fault.Expected := by
  obtain ⟨type, typed⟩ := Node.check_members_const (within.members ready) isConst
  have answered : Answered plan registry file .const type := by
    refine within.answered ready home (by decide) fun dependency depends => ?_
    apply List.mem_append_right
    rw [Node.memberDependencies, isConst]
    simpa only [typed]
  rw [typed]
  exact type_text_expected frame answered .reader

/-- What stands in a file is declared, or refused for what the schema says. -/
theorem declare_from_expected (within : Within plan file node scopes) {bound : Nat}
    (room : plan.graph.size < bound + scopes.length) :
    (declareFrom plan bound node).FailsFrom (Standing registry file) Fault.Expected := by
  induction bound generalizing node scopes with
  | zero =>
      have short := within.short
      omega
  | succ bound induction =>
      have keeps : ∀ node, (declareFrom plan bound node).Keeps (Standing registry file) :=
        frame.declareFrom bound
      have keepsNested : ∀ node,
          (nestedDeclarations plan (declareFrom plan bound) node).Keeps (Standing registry file) :=
        Frame.nestedDeclarations keeps
      have deeper : ∀ node around, Within plan file node around → scopes.length < around.length →
          (declareFrom plan bound node).FailsFrom (Standing registry file) Fault.Expected :=
        fun node around inside longer => induction inside (by omega)
      have inner : (nestedDeclarations plan (declareFrom plan bound) node).FailsFrom
          (Standing registry file) Fault.Expected := by
        refine Frame.nested_declarations_fails keeps fun id listed => ?_
        obtain ⟨child, found, _, inside⟩ := within.child ready (List.mem_append_left _ listed)
        exact ⟨child, found, fun _ => deeper child _ inside (by simp)⟩
      have struct : node.kind = .struct → (Struct.declare plan
          (nestedDeclarations plan (declareFrom plan bound)) (declareFrom plan bound) node).FailsFrom
            (Standing registry file) Fault.Expected := fun isStruct =>
        declare_struct_expected ready home frame within isStruct keepsNested keeps inner deeper
      unfold declareFrom
      dsimp only
      split
      · rename_i isGroup
        have checked := ready.checked node (Graph.mem_of_node? within.found)
        exact .of_bind (frame.declareStruct keepsNested keeps node)
          (struct ((Node.check_ok checked).2.1 isGroup)) fun _ => .of_pure _
      · refine frame.declare_kind_fails (fun _ _ => .unsupported _ _ _) keepsNested keeps struct ?_
          (fun isInterface =>
            declare_interface_expected ready home frame within isInterface keepsNested inner)
          (const_type_expected ready home frame within)
        intro isEnum
        refine frame.declare_enum_fails (internal_of_expected ready within.met within.found ?_)
          fun _ _ => .unsupported _ _ _
        rw [isEnum]
        rfl

omit home frame in
/-- A node that is cast to has a class and an alias in the role it is listed by. -/
theorem cast_role_known (found : plan.graph.node? node.id = some node) {role : Role}
    (casts : AnyPointer.castRole? node = some role) :
    node.kind.hasModule = true ∧ plan.graph.isAnonymousGroup node = false ∧
      role ∈ kindRoles node.kind := by
  have checked := ready.checked node (Graph.mem_of_node? found)
  have groups := (Node.check_ok checked).2.1
  unfold AnyPointer.castRole? at casts
  split at casts
  · rename_i isStruct
    cases casts
    have single : node.isGroup = false := by simpa using isStruct.2
    simp [isStruct.1, single, kindRoles, NodeKind.hasModule, Graph.isAnonymousGroup]
  · split at casts
    · rename_i isInterface
      cases casts
      have single : node.isGroup = false := by
        by_contra group
        have isStruct := groups (by simpa using group)
        rw [isInterface] at isStruct
        cases isStruct
      simp [isInterface, single, kindRoles, NodeKind.hasModule, Graph.isAnonymousGroup]
    · cases casts

omit home in
/-- The class for pointers to anything lists nodes that have what it asks for. -/
theorem declare_any_pointer_expected :
    (AnyPointer.declare plan).FailsFrom (Standing registry file) Fault.Expected := by
  refine frame.declare_any_pointer_fails fun node listed => ?_
  obtain ⟨id, met, found⟩ := List.mem_filterMap.mp listed
  have same := Graph.id_of_node? found
  subst same
  unfold AnyPointer.target
  refine .of_get_bind fun draft _ => ?_
  split
  · exact .of_pure _
  · rename_i role casts
    obtain ⟨module, named, inRole⟩ := cast_role_known ready found casts
    have has := ready.has node met found named role inRole
    split
    · exact .of_pure _
    · refine .of_bind (Writing.internalOf node) (internal_of_expected ready met found module)
        fun internal => ?_
      refine .of_bind (frame.getAlias _ role) ?_ fun _ => .of_pure _
      intro draft fault standing failed
      obtain ⟨name, known⟩ := Registry.lookup_of_has has
      unfold Draft.inRegistry Registry.getAlias at failed
      rw [Step.outcome_on_part, Step.outcome_bind, get_aliases_answers standing has] at failed
      simp only [known] at failed
      cases failed

end Declarations

section Layout

variable (frame : Frame plan (Standing registry file))

theorem collect_expected {bindings : Import.Bindings} {imports : List Import} {body : String}
    {fault : Fault} (failed : ImportSection.collect bindings imports body = .error fault) :
    fault.Expected := by
  have used : ∀ name, Import.checkUsed bindings name = .error fault → fault.Expected := by
    intro name refused
    unfold Import.checkUsed at refused
    split at refused
    · cases refused
      exact ⟨rfl, by simp, by simp⟩
    · cases refused
  have locals : ∀ before entries, Import.checkLocals bindings before entries = .error fault →
      fault.Expected := by
    intro before entries refused
    induction entries generalizing before with
    | nil => cases refused
    | cons entry rest induction =>
        rcases except_bind_error refused with here | ⟨_, _, later⟩
        · unfold Import.checkLocal at here
          split at here
          · cases here
            exact .collision _ _ _
          · split at here
            · cases here
              exact .collision _ _ _
            · split at here
              · cases here
                exact ⟨rfl, by simp, by simp⟩
              · cases here
        · exact induction _ later
  rcases except_bind_error failed with checks | ⟨_, _, failed⟩
  · obtain ⟨name, _, refused⟩ := except_forM_error checks
    exact used name refused
  · rcases except_bind_error failed with checks | ⟨_, _, failed⟩
    · exact locals _ _ checks
    · cases failed

include frame

theorem lay_out_expected (declarations : List Declaration) :
    (layOut plan declarations).FailsFrom (Standing registry file) Fault.Expected := by
  refine .of_get_bind fun draft _ => ?_
  refine .of_bind (.of_forM fun entry _ => frame.bind _ _) ?_ fun _ => ?_
  · exact .of_forM (fun entry _ => frame.bind _ _) fun entry _ => .of_fails_as (bind_fails .collision _ _)
  · refine .of_get_bind fun reached _ => .of_check (fun _ => collect_expected) fun imports _ => ?_
    exact .of_bind (frame.note _) (.of_fails_as (.of_on_part (.of_modify _))) fun _ => .of_pure _

end Layout

section Files

variable (ready : Ready plan registry) (home : plan.graph.GroupsStayHome)
  (frame : Frame plan (Standing registry file))

include ready home frame

theorem declare_file_expected (isFile : file.kind = .file)
    (found : plan.graph.node? file.id = some file) :
    (declareFile plan).FailsFrom (Standing registry file) Fault.Expected := by
  refine frame.declare_file_fails .collision (fun draft standing node listed => ?_)
    (declare_any_pointer_expected ready frame)
  rw [standing.ofFile] at listed
  obtain ⟨inPlan, place⟩ := List.mem_filter.mp listed
  obtain ⟨id, met, here⟩ := List.mem_filterMap.mp inPlan
  have same := Graph.id_of_node? here
  subst same
  simp only [bne_iff_ne, Bool.and_eq_true, beq_iff_eq] at place
  have chain : plan.graph.ScopeChain node [file] file :=
    .up place.1 (by rw [place.2, found]) (.file isFile)
  refine frame.declare_top_level_fails .collision (fun _ _ => .unsupported _ _ _) fun _ => ?_
  exact declare_from_expected ready home frame ⟨met, here, chain⟩ (by omega)

theorem compose_expected (isFile : file.kind = .file)
    (found : plan.graph.node? file.id = some file) :
    (compose plan file).FailsFrom (Standing registry file) Fault.Expected := by
  have inContext : ∀ context (fault : Fault), fault.Expected →
      (fault.withContext context).Expected := fun context _ expected => expected.withContext context
  refine .of_bind (frame.declareFile.of_in_context _) ?_ fun declarations => ?_
  · exact .of_in_context (declare_file_expected ready home frame isFile found) _ (inContext _)
  · exact .of_in_context (lay_out_expected frame declarations) _ (inContext _)

end Files

section Runs

def Between (registry current : Registry) : Prop :=
  ∀ file, Standing registry file { registry := current, file }

theorem add_file_expected (ready : Ready plan registry) (home : plan.graph.GroupsStayHome)
    {id : Id} (known : (plan.graph.node? id).isSome) (before : List Drafted) :
    (addFile plan before id).Keeps (Between registry) ∧
      (addFile plan before id).FailsFrom (Between registry) Fault.Expected := by
  obtain ⟨node, found⟩ := Option.isSome_iff_exists.mp known
  obtain ⟨file, inFile⟩ := ready.wellScoped.ends.file_ok found
  have frame := standing_frame ready.located registry file
  have composes := compose_expected ready home frame (Graph.kind_of_file inFile)
    (Graph.node?_of_file inFile)
  have keeps : (draft plan file).Keeps (Between registry) := by
    refine .of_within (frame.compose file) (fun current between => between file) ?_
    intro draft standing other
    exact ⟨rfl, standing.resolved, standing.aliases, standing.internal⟩
  have notes : ∀ event, (Registry.note event).Keeps (Between registry) :=
    fun event current between other => { between other with }
  unfold addFile
  rw [inFile]
  constructor
  · intro current between
    rw [Step.outcome_bind, Step.outcome_of_except]
    suffices rest : Step.Keeps (Between registry) _ from rest current between
    dsimp only
    split
    · exact .of_fail _
    · exact .of_bind keeps fun _ => .of_bind (notes _) fun _ => .of_pure _
  · refine .of_check (fun fault failed => nomatch failed) fun other same => ?_
    cases same
    dsimp only
    split
    · exact .of_fail (.collision _ _ _)
    · refine .of_bind keeps (.of_within composes fun current between => between file) fun _ => ?_
      exact .of_bind (notes _) (.of_fails_as (.of_modify _)) fun _ => .of_pure _

theorem survey_expected {graph : Graph} (ends : graph.ScopesEnd) {roots : List Id}
    {before : Registry} {fault : Fault}
    (failed : ((survey graph roots).outcome before).1 = .error fault) : fault.Expected := by
  have fails : (Walk.run graph roots).FailsFrom (fun _ => True) Fault.Expected := by
    intro walk other _ stopped
    rcases Walk.run_error ends (Prod.ext stopped rfl) with stops | ⟨_, _, rfl⟩
    · exact stops.expected
    · exact .pending _
  have inWalk : (survey graph roots).FailsFrom (fun _ => True) Fault.Expected :=
    fails.of_within fun _ _ => trivial
  exact inWalk before fault trivial failed

theorem run_expected {options : Options} {entries : List (Option Node)} {requested : List Id}
    {graph : Graph} (built : Graph.build entries requested = .ok graph)
    (wellScoped : graph.WellScoped) (methods : graph.DistinctMethods)
    (home : graph.GroupsStayHome) {fault : Fault}
    (failed : ((run options graph).outcome {}).1 = .error fault) : fault.Expected := by
  unfold run at failed
  rcases Step.bind_error failed with drafting | ⟨drafts, registry, _, failed⟩
  · unfold draftAll at drafting
    dsimp only at drafting
    rcases Step.bind_error drafting with early | ⟨walk, surveyed, surveys, drafting⟩
    · exact survey_expected wellScoped.ends early
    obtain ⟨rfl, traverses, _, quiet, met⟩ := survey_returns surveys
    have start : Heard graph [] walk.registry :=
      ⟨quiet.2.2.2.1, traverses.canonical, by simp [quiet.1]⟩
    rcases Step.bind_error drafting with early | ⟨_, asked, asks, drafting⟩
    · exact request_aliases_expected wellScoped built methods start early
    rcases Step.bind_error drafting with early | ⟨_, resolved, resolves, drafting⟩
    · exact Registry.resolve_fails_as .collision asked fault trivial early
    have inquiry := request_aliases_returns wellScoped built (quiet.inquiry traverses.canonical) asks
    have prepared := prepared_of_returns options surveys asks resolves
    have ready := Ready.of_prepared built wellScoped prepared inquiry
    have known : ∀ id ∈ graph.requested.eraseDups, (graph.node? id).isSome := by
      intro id member
      obtain ⟨node, _, found, _⟩ :=
        prepared.identified id (met id (List.mem_eraseDups.mp member))
      exact Option.isSome_iff_exists.mpr ⟨node, found⟩
    -- every stub starts from the aliases and the identifiers of the preparation
    have adds := fun id member before => add_file_expected ready home (known id member) before
    have drafts := Step.FailsFrom.of_foldlM (fun id member before => (adds id member before).1)
      (fun id member before => (adds id member before).2) []
    exact drafts resolved fault (fun file => ⟨rfl, prepared.resolved, rfl, rfl⟩) drafting
  · rw [Step.outcome_bind, Step.outcome_get] at failed
    dsimp only at failed
    split at failed
    · cases failed
      exact .pending _
    · cases failed

end Runs

/-- A run fails for what the schema says, as long as no interface has two methods of one name. -/
theorem generate_fails_expected {options : Options} {entries : List (Option Node)}
    {requested : List Id} {graph : Graph} (built : Graph.build entries requested = .ok graph)
    (wellScoped : graph.WellScoped) (methods : graph.DistinctMethods)
    (home : graph.GroupsStayHome) {fault : Fault}
    (failed : (generate options graph).1 = .error fault) :
    (∃ found, fault.class? = some found ∧ found ≠ .drift) ∧ fault.isFatal = true ∧
      fault.Expected := by
  have expected := run_expected built wellScoped methods home failed
  refine ⟨?_, expected.fatal, expected⟩
  have fatal := expected.fatal
  unfold Fault.isFatal at fatal
  split at fatal
  · cases fatal
  · cases fatal
  · rename_i found notDrift known
    exact ⟨found, known, notDrift⟩

def namesakes : Graph where
  nodes := [
    { id := 1, kind := .file, name := "a", displayName := "a", nested := [2, 3] },
    { id := 2, kind := .struct, name := "S", displayName := "S", scope := 1 },
    { id := 3, kind := .struct, name := "S", displayName := "S", scope := 1 }]
  requested := [1]

theorem generate_fails_expected_namesakes :
    ∃ fault, (generate {} namesakes).1 = .error fault ∧ fault.isFatal = true ∧
      fault.Expected := by
  have built : Graph.build (namesakes.nodes.map some) [1] = .ok namesakes := rfl
  have wellScoped : namesakes.WellScoped := by decide +kernel
  have methods : namesakes.DistinctMethods := by
    unfold Graph.DistinctMethods
    decide +kernel
  have single : ∀ node ∈ namesakes.nodes, namesakes.isAnonymousGroup node = false := by
    decide +kernel
  have home : namesakes.GroupsStayHome := by
    intro node _ via target body _ _ found anonymous
    rw [single body (Graph.mem_of_node? found)] at anonymous
    cases anonymous
  have failed : (generate {} namesakes).1 =
      .error (Cause.nameCollision "_SStructModule" 2 3) := by
    decide +kernel
  obtain ⟨_, fatal, expected⟩ := generate_fails_expected built wellScoped methods home failed
  exact ⟨_, failed, fatal, expected⟩

def repeatedMethod : Graph where
  nodes := [
    { id := 1, kind := .file, name := "a", displayName := "a", nested := [2] },
    { id := 2, kind := .interface, name := "I", displayName := "I", scope := 1,
      methods := [{ name := "foo" }, { name := "foo" }] }]
  requested := [1]

/-- Two methods of one name make a run fail on an assertion of its own. -/
theorem repeatedMethod_fails_on_assertion :
    Graph.build (repeatedMethod.nodes.map some) [1] = .ok repeatedMethod ∧
      repeatedMethod.ScopesEnd ∧ ∃ fault, (generate {} repeatedMethod).1 = .error fault ∧
        fault.cause = .assertion "duplicate alias request for 0x0000000000000002.foo" ∧
        fault.class? = none ∧ fault.isFatal = false := by
  refine ⟨rfl, by decide +kernel,
    Cause.assertion "duplicate alias request for 0x0000000000000002.foo", ?_, rfl, ?_⟩
  · decide +kernel
  · decide +kernel

end SchemaStubs.Stub
