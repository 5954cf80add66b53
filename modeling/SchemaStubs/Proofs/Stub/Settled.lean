import SchemaStubs.Proofs.Stub.Marks

/-!
What is settled when a run is over. The stubs drafted so far hold their classes, the marks that were
made stay, and no node was declared but those that have a class.
-/

namespace SchemaStubs.Stub

open Generation

variable {plan : Plan} {registry : Registry} {file : Node} {marked : List Id} {before after : Draft}

section Declared

structure Orderly (plan : Plan) (draft : Draft) : Prop where
  resolved : draft.registry.resolved = true
  declared : ∀ id ∈ draft.registry.declared, ∀ node, plan.graph.node? id = some node →
    plan.graph.HasClass node

theorem orderly_writing (located : plan.Located) : Writing plan (Orderly plan) where
  targets target reference known := (located target reference known).1
  markReferenced _ _ orderly := { orderly with }
  anyPointer _ orderly := { orderly with }
  importAliases _ _ _ roles _ _ _ _ :=
    import_aliases_keeps (fun _ orderly => orderly.resolved)
      (fun _ _ orderly _ => { orderly with }) (fun _ _ _ _ orderly _ _ => { orderly with }) roles _

theorem Orderly.markDeclared {node : Node} (orderly : Orderly plan before)
    (found : plan.graph.node? node.id = some node) (hasClass : plan.graph.HasClass node)
    (returns : (Draft.inRegistry (Registry.markDeclared node.id)).Returns before () after) :
    Orderly plan after := by
  unfold Draft.inRegistry Registry.markDeclared at returns
  obtain ⟨_, marks, rfl⟩ := Step.Returns.on_part_iff.mp returns
  cases Step.Returns.modify_iff.mp marks
  refine ⟨orderly.resolved, fun id member other otherFound => ?_⟩
  dsimp only at member
  split at member
  · exact orderly.declared id member other otherFound
  · rcases List.mem_append.mp member with earlier | new
    · exact orderly.declared id earlier other otherFound
    · cases List.mem_singleton.mp new
      rw [found] at otherFound
      cases otherFound
      exact hasClass

theorem Orderly.begins {node : Node} {start : Draft} (orderly : Orderly plan before)
    (begins : Begins node before start) : Orderly plan start := by
  rcases begins with ⟨_, rfl⟩ | ⟨_, notes⟩
  · exact orderly
  · unfold Draft.note Draft.inRegistry at notes
    obtain ⟨_, notes, rfl⟩ := Step.Returns.on_part_iff.mp notes
    cases Step.Returns.modify_iff.mp notes
    exact { orderly with }

theorem Scene.groups_named (scene : Scene plan registry) {node : Node}
    (found : plan.graph.node? node.id = some node) (named : plan.graph.isAnonymousGroup node = false)
    {members : List Member} (flattened : Member.ofNode plan.graph node = .ok members) {body : Node}
    (listed : body ∈ members.filterMap Member.group) : GroupIn plan.graph node body := by
  obtain ⟨entries, requested, built⟩ := scene.built
  obtain ⟨scopes, file, chain⟩ := scene.wellScoped.ends node (Graph.mem_of_node? found)
  have room : plan.graph.size < plan.graph.size + 1 + scopes.length := by omega
  have preorder := declarations_from_preorder (scene.wellScoped.forest built) found chain room
  generalize declarationsFrom plan.graph (plan.graph.size + 1) node.id = order at preorder
  cases preorder with
  | cons same under _ =>
      rw [found] at same
      cases same
      obtain ⟨_, _, _, _, inGroups⟩ := Graph.Preorder.split under
      obtain ⟨orders, related, _⟩ := of_node_from_groups scene.wellScoped built flattened
        (Graph.mem_of_node? found) (fun body inNode => .direct inNode named) inGroups
      obtain ⟨_, _, placed, _⟩ := Lists.exists_of_mem_left related listed
      exact placed

/-- Within a bound, declaring a node that is no anonymous group keeps a draft orderly. -/
def OrderlyWithin (plan : Plan) (bound : Nat) : Prop :=
  ∀ {node : Node} {before after : Draft} {declarations : List Declaration},
    plan.graph.node? node.id = some node → plan.graph.isAnonymousGroup node = false →
    Orderly plan before → (declareFrom plan bound node).Returns before declarations after →
    Orderly plan after

theorem orderly_mapM {α β : Type} {body : α → Step Draft β} {items : List α} {values : List β}
    (each : ∀ item ∈ items, ∀ before value after, Orderly plan before →
      (body item).Returns before value after → Orderly plan after)
    (orderly : Orderly plan before) (returns : (items.mapM body).Returns before values after) :
    Orderly plan after := by
  refine Step.Returns.mapM_stages (fun _ _ draft => Orderly plan draft) ?_ returns orderly
  intro done item rest place values value start reached step still
  exact each item (by simp [← place]) start value reached still step

theorem nested_declarations_orderly (scene : Scene plan registry) {bound : Nat}
    (within : OrderlyWithin plan bound) {node : Node} (found : plan.graph.node? node.id = some node)
    {inner : List Declaration} (orderly : Orderly plan before)
    (returns : (nestedDeclarations plan (declareFrom plan bound) node).Returns before inner after) :
    Orderly plan after := by
  unfold nestedDeclarations at returns
  rw [Step.Returns.bind_iff] at returns
  obtain ⟨blocks, _, declares, last⟩ := returns
  obtain ⟨rfl, rfl⟩ := Step.Returns.pure_iff.mp last
  refine orderly_mapM (fun id listed before block after starts step => ?_) orderly declares
  split at step
  · exact (Step.Returns.fail_iff.mp step).elim
  · rename_i nested nestedFound
    obtain ⟨single, _⟩ := scene.nested_single found listed nestedFound
    rw [if_neg (by simp [single])] at step
    exact within (Graph.id_of_node? nestedFound ▸ nestedFound)
      (by simp [Graph.isAnonymousGroup, single]) starts step

theorem declare_from_orderly (scene : Scene plan registry) (bound : Nat) :
    OrderlyWithin plan bound := by
  have writing := orderly_writing scene.located
  induction bound with
  | zero =>
      intro node before after declarations _ _ _ returns
      exact (Step.Returns.fail_iff.mp returns).elim
  | succ bound induction =>
      intro node before after declarations found named orderly returns
      obtain ⟨_, same, declared⟩ := declare_from_returns returns
      cases same
      cases declared with
      | struct isStruct begins declares =>
          have hasClass := scene.has_class_struct found isStruct named
          obtain ⟨internal, members, inner, groups, views, extra, parts, rfl⟩ :=
            declare_struct_returns declares
          obtain ⟨marked, nestedDone, groupsDone, viewsDone, marks, nests, ⟨blocks, bodies, rfl⟩,
            viewing, messages⟩ := parts.made
          have marking := (orderly.begins begins).markDeclared found hasClass marks
          have nesting : Orderly plan nestedDone := by
            split at nests
            · obtain ⟨_, rfl⟩ := nests
              exact marking
            · exact nested_declarations_orderly scene induction found marking nests
          have grouping : Orderly plan groupsDone := by
            refine orderly_mapM (fun body listed before block after starts step => ?_) nesting bodies
            have placed := scene.groups_named found named parts.flattened listed
            exact induction placed.found placed.hasClass.2 starts step
          have viewed := (writing.views node internal members).returns viewing grouping
          split at messages
          · obtain ⟨_, rfl⟩ := messages
            exact viewed
          · obtain ⟨_, makes, _⟩ := messages
            exact (writing.newMessage internal members).returns makes viewed
      | enum _ isEnum begins declares =>
          obtain ⟨_, _, _, marks, rfl⟩ := declare_enum_returns declares
          exact (orderly.begins begins).markDeclared found ⟨by rw [isEnum]; rfl, named⟩ marks
      | interface _ isInterface begins declares =>
          obtain ⟨internal, inner, clientBases, serverBases, surfaces, parts, rfl⟩ :=
            declare_interface_returns declares
          obtain ⟨marked, nestedDone, based, marks, nests, bases, surfacing⟩ := parts.made
          have marking := (orderly.begins begins).markDeclared found
            ⟨by rw [isInterface]; rfl, named⟩ marks
          have nesting := nested_declarations_orderly scene induction found marking nests
          have basing := (writing.bases node).returns bases nesting
          exact (writing.surfaces node internal [] node.methods).returns surfacing basing
      | const _ _ begins typed =>
          exact (writing.typeText .reader node.constType).returns typed (orderly.begins begins)
      | nothing _ _ begins => exact orderly.begins begins

theorem bind_orderly (name : String) (owner : Id) : (Draft.bind name owner).Keeps (Orderly plan) :=
  bind_keeps fun _ _ _ orderly => { orderly with }

theorem declare_file_orderly (scene : Scene plan registry) {declarations : List Declaration}
    (orderly : Orderly plan before)
    (returns : (declareFile plan).Returns before declarations after) : Orderly plan after := by
  obtain ⟨blocks, reached, extra, declares, appended, _⟩ := declare_file_returns returns
  have declared : Orderly plan reached := by
    refine orderly_mapM (fun node listed before block after starts step => ?_) orderly declares
    obtain ⟨declarations, middle, blocks, declares, binds, _⟩ := declare_top_level_returns step
    obtain ⟨single, within⟩ := declare_node_returns declares
    obtain ⟨found, _, _⟩ := mem_top_level_nodes listed
    have stands := declare_from_orderly scene _ found (by simp [Graph.isAnonymousGroup, single]) starts
      within
    refine orderly_mapM (fun declaration _ before block after starts step => ?_) stands binds
    have keeps : (bindTopLevel node declaration).Keeps (Orderly plan) := by
      unfold bindTopLevel
      split
      · exact .of_bind (bind_orderly _ _) fun _ => .of_pure _
      · exact .of_bind (bind_orderly _ _) fun _ => .of_bind (bind_orderly _ _) fun _ => .of_pure _
      · exact .of_pure _
    exact keeps.returns step starts
  cases appended with
  | pointers _ binds declaresAny =>
      have bound := (bind_orderly _ _).returns binds declared
      have target : ∀ node, (AnyPointer.target plan node).Keeps (Orderly plan) := by
        intro node
        unfold AnyPointer.target
        refine .of_bind .of_get fun draft => ?_
        split
        · exact .of_pure _
        · split
          · exact .of_pure _
          · refine .of_bind (Writing.internalOf node) fun internal => ?_
            exact .of_bind (get_alias_keeps (fun _ orderly => orderly.resolved) _ _) fun _ => .of_pure _
      have keeps : (AnyPointer.declare plan).Keeps (Orderly plan) :=
        .of_bind (.of_bind (.of_mapM fun node _ => target node) fun _ => .of_pure _) fun _ => .of_pure _
      exact keeps.returns declaresAny bound
  | nothing _ => exact declared

end Declared

section Run

structure Settled (plan : Plan) (registry : Registry) (file : Node) (marked : List Id)
    (declarations : List Declaration) : Prop where
  places : ∃ order, order.Perm (declarationOrder plan.graph file.id) ∧
    Places plan registry file marked "" order declarations
  top : ∀ id ∈ file.nested, ∀ node, plan.graph.node? id = some node →
    ∃ bound, Took registry file marked (declareFrom plan bound node)

theorem Settled.mono {more : List Id} {declarations : List Declaration}
    (settled : Settled plan registry file marked declarations) (subset : marked ⊆ more) :
    Settled plan registry file more declarations where
  places := by
    obtain ⟨order, listed, places⟩ := settled.places
    exact ⟨order, listed, places.mono subset⟩
  top id listed node found := by
    obtain ⟨bound, took⟩ := settled.top id listed node found
    exact ⟨bound, took.mono subset⟩

theorem declare_file_settled (scene : Scene plan registry) (distinct : plan.order.Nodup)
    (found : plan.graph.node? file.id = some file) (isFile : file.kind = .file)
    (closed : ∀ id ∈ file.nested, id ∈ plan.order) (standing : Standing registry file before)
    {declarations : List Declaration}
    (returns : (declareFile plan).Returns before declarations after) :
    Settled plan registry file after.registry.referenced declarations where
  places := declare_file_places scene distinct found isFile closed standing returns
  top := by
    intro id listed node nodeFound
    obtain ⟨blocks, reached, _, declares, subset, _, _⟩ :=
      declare_file_blocks scene.located standing returns
    have inTop := scene.mem_top_level distinct found isFile closed listed nodeFound
    have loop : Took registry file after.registry.referenced
        ((topLevelNodes plan file.id).mapM (declareTopLevel plan)) :=
      ⟨_, _, _, standing, declares, subset⟩
    have each := loop.mapM scene.located (fun node _ frame => frame.declareTopLevel node) inTop
    unfold declareTopLevel at each
    obtain ⟨start, _, _, starts, step, within⟩ := each.first scene.located
      (fun frame => frame.declareNode node) fun _ _ frame =>
        .of_bind (.of_mapM fun declaration _ => frame.bindTopLevel node declaration) fun _ => .of_pure _
    exact ⟨_, start, _, _, starts, (declare_node_returns step).2, within⟩

theorem lay_out_marks {declarations : List Declaration} {content : String}
    (returns : (layOut plan declarations).Returns before content after) :
    after.registry.referenced = before.registry.referenced ∧
      after.registry.declared = before.registry.declared := by
  have keeps : (layOut plan declarations).Keeps fun draft =>
      draft.registry.referenced = before.registry.referenced ∧
        draft.registry.declared = before.registry.declared := by
    unfold layOut
    refine .of_bind .of_get fun draft => ?_
    refine .of_bind (.of_forM fun entry _ => bind_keeps fun _ _ _ same => same) fun _ => ?_
    refine .of_bind .of_get fun reached => .of_bind (.of_of_except _) fun imports => ?_
    refine .of_bind (fun draft same => ?_) fun _ => .of_pure _
    exact same
  exact keeps.returns returns ⟨rfl, rfl⟩

def Undeclaring (registry : Registry) : Prop :=
  registry.declared = []

theorem request_aliases_undeclaring (graph : Graph) (reached : List Id) :
    (requestAliases graph reached).Keeps Undeclaring :=
  request_aliases_keeps_of_register reached
    (fun _ => Registry.register_from_keeps Undeclaring (fun _ _ _ _ none => none) _ _)
    fun _ _ _ none => none

theorem resolve_undeclaring : Registry.resolve.Keeps Undeclaring := by
  refine Registry.resolve_keeps (fun _ _ _ none => none) fun wish registry none => ?_
  rcases Registry.assign_cases wish registry with unchanged | ⟨base, _, assigned, _⟩
  · rwa [unchanged]
  · rw [assigned]
    exact none

theorem survey_undeclaring {graph : Graph} {walk : Walk} {surveyed : Registry}
    (returns : (survey graph graph.requested.eraseDups).Returns {} walk surveyed) :
    Undeclaring surveyed := by
  obtain ⟨_, _, walks, rfl, rfl⟩ := Step.Returns.within_iff.mp returns
  have carries : Walk.Carries graph graph.requested.eraseDups fun _ _ walk =>
      Undeclaring walk.registry := Walk.registry_carries graph _ fun _ _ _ _ none => none
  have start : Undeclaring ({} : Walk).registry := rfl
  exact (carries.run (fun _ member => member) start walks).1

theorem Prepared.nested_met {asked : Registry} (prepared : Prepared plan asked registry)
    (met : file.id ∈ plan.order) (found : plan.graph.node? file.id = some file) :
    ∀ id ∈ file.nested, id ∈ plan.order := by
  intro id listed
  obtain ⟨_, member⟩ := Node.mem_dependencies_of_mentions (Node.Mentions.nested listed)
  exact (prepared.closed file.id met file found _ member).1

/-- Every stub of a run is settled when the run is over, and only nodes with classes were
declared. -/
theorem draft_all_settled {options : Options} {entries : List (Option Node)} {requested : List Id}
    {graph : Graph} (built : Graph.build entries requested = .ok graph)
    (wellScoped : graph.WellScoped) (undotted : graph.Undotted) {drafts : List Drafted}
    {registry : Registry} (returns : (draftAll options graph).Returns {} drafts registry) :
    ∃ walk surveyed asked resolved,
      (survey graph graph.requested.eraseDups).Returns {} walk surveyed ∧
      let plan : Plan := { graph, options, order := walk.order, references := walk.references }
      Prepared plan asked resolved ∧
      registry.aliases = resolved.aliases ∧ registry.internal = resolved.internal ∧
      Scene plan resolved ∧
      (∀ id ∈ registry.declared, ∀ node, graph.node? id = some node → graph.HasClass node) ∧
      ∀ drafted ∈ drafts, ∃ declarations statements,
        Assembled plan resolved drafted declarations statements ∧
        Settled plan resolved drafted.file registry.referenced declarations := by
  have asks := (Graph.build_ok built).2.1
  obtain ⟨walk, surveyed, asked, resolved, surveys, inquires, resolves, delivers⟩ :=
    draft_all_returns returns
  have prepared := prepared_of_returns options surveys inquires resolves
  let plan : Plan := { graph, options, order := walk.order, references := walk.references }
  have scene : Scene plan resolved :=
    ⟨⟨entries, requested, built⟩, wellScoped, undotted, prepared.plan_located, prepared.canonical⟩
  have located := prepared.plan_located
  have nothing : Undeclaring resolved := resolve_undeclaring.returns resolves
    ((request_aliases_undeclaring graph walk.order).returns inquires (survey_undeclaring surveys))
  refine ⟨walk, surveyed, asked, resolved, surveys, prepared, ?_⟩
  obtain ⟨_, aliases, internal, orderly, each⟩ := Step.Returns.foldlM_stages
    (fun _ drafts registry => registry.resolved = true ∧ registry.aliases = resolved.aliases ∧
      registry.internal = resolved.internal ∧
      (∀ id ∈ registry.declared, ∀ node, graph.node? id = some node → graph.HasClass node) ∧
      ∀ drafted ∈ drafts, ∃ declarations statements,
        Assembled plan resolved drafted declarations statements ∧
        Settled plan resolved drafted.file registry.referenced declarations)
    (by
      rintro done id rest place drafts next before after step ⟨done, same, alike, orderly, each⟩
      obtain ⟨file, content, draft, journal, inFile, composes, rfl, rfl⟩ := add_file_returns step
      have fresh : Standing resolved file { registry := before, file } := ⟨rfl, done, same, alike⟩
      have frame := standing_frame located resolved file
      have stands := (frame.compose file).returns composes fresh
      obtain ⟨declarations, declared, statements, bindings, declares, lays, collected, laidOut⟩ :=
        compose_returns located fresh composes
      obtain ⟨referencedSame, declaredSame⟩ := lay_out_marks lays
      have inOrder := declare_file_orderly scene ⟨done, orderly⟩ declares
      have inRequested : id ∈ graph.requested := by
        have inRoots : id ∈ graph.requested.eraseDups := by simp [← place]
        exact List.mem_eraseDups.mp inRoots
      have sameId := Graph.id_of_requested built (asks ▸ inRequested) inFile
      have fileFound := Graph.node?_of_file inFile
      have settled := declare_file_settled scene prepared.distinct fileFound
        (Graph.kind_of_file inFile)
        (prepared.nested_met (sameId ▸ prepared.requested id inRequested) fileFound) fresh declares
      have subset := referenced_subset located (fun frame => frame.compose file) fresh composes
      refine ⟨stands.resolved, stands.aliases, stands.internal, ?_, fun drafted member => ?_⟩
      · intro id member
        rw [show draft.registry.declared = _ from declaredSame] at member
        exact inOrder.declared id member
      · rcases List.mem_append.mp member with earlier | last
        · obtain ⟨declarations, statements, assembled, settled⟩ := each drafted earlier
          exact ⟨declarations, statements, assembled, settled.mono subset⟩
        · cases List.mem_singleton.mp last
          exact ⟨declarations, statements,
            ⟨⟨before, declared, fresh, declares⟩, ⟨bindings, collected⟩, laidOut⟩,
            settled.mono (by rw [← referencedSame]; exact List.Subset.refl _)⟩)
    delivers ⟨prepared.resolved, rfl, rfl, by simp [show resolved.declared = [] from nothing],
      by simp⟩
  exact ⟨aliases, internal, scene, orderly, each⟩

end Run

end SchemaStubs.Stub
