import SchemaStubs.Proofs.Naming.Identifier
import SchemaStubs.Proofs.Naming.Segment

/-!
Distinct identifiers. A class name is claimed in the scope of its node and an identifier is the path
of the class names around a node, so two nodes of a file have different identifiers. Anonymous groups
are the exception: what stands in one is put under the class around the group, but its class name was
claimed in the group alone.
-/

namespace SchemaStubs

namespace Graph

def HasClass (graph : Graph) (node : Node) : Prop :=
  node.kind.hasModule = true ∧ graph.isAnonymousGroup node = false

instance (graph : Graph) (node : Node) : Decidable (graph.HasClass node) :=
  inferInstanceAs (Decidable (_ ∧ _))

/-- The nearest scope around a node that is no anonymous group. -/
inductive Home (graph : Graph) : Node → Node → Prop where
  | direct {node scope : Node} (found : graph.node? node.scope = some scope)
      (named : graph.isAnonymousGroup scope = false) : Home graph node scope
  | through {node group scope : Node} (found : graph.node? node.scope = some group)
      (anonymous : graph.isAnonymousGroup group = true) (outer : Home graph group scope) :
      Home graph node scope

/-- Flattening anonymous groups brings no two nodes of one class name under one class. -/
def FlattenedApart (graph : Graph) : Prop :=
  ∀ one ∈ graph.nodes, ∀ two ∈ graph.nodes, graph.HasClass one → graph.HasClass two →
    one.scope ≠ two.scope → ∀ home, graph.Home one home → graph.Home two home →
      one.segment (Registry.groupName graph one) ≠ two.segment (Registry.groupName graph two)

variable {graph : Graph} {node home : Node}

/-- Where all class names differ, those that flattening brings together do. -/
theorem FlattenedApart.of_nodup
    (distinct : ((graph.nodes.filter fun node => decide (graph.HasClass node)).map fun node =>
      node.segment (Registry.groupName graph node)).Nodup) : graph.FlattenedApart := by
  intro one oneMember two twoMember oneClass twoClass scopes home _ _ same
  have alike := List.inj_on_of_nodup_map distinct
    (List.mem_filter.mpr ⟨oneMember, decide_eq_true oneClass⟩)
    (List.mem_filter.mpr ⟨twoMember, decide_eq_true twoClass⟩) same
  rw [alike] at scopes
  exact scopes rfl

theorem kind_ne_file_of_has_module (module : node.kind.hasModule = true) : node.kind ≠ .file := by
  intro isFile
  rw [isFile] at module
  cases module

theorem is_anonymous_group_of_file (isFile : node.kind = .file)
    (checked : node.isGroup = true → node.kind = .struct) : graph.isAnonymousGroup node = false := by
  unfold isAnonymousGroup
  have single : node.isGroup = false := by
    by_contra group
    rw [checked (by simpa using group)] at isFile
    cases isFile
  rw [single, Bool.false_and]

theorem Home.found (isHome : graph.Home node home) : graph.node? home.id = some home := by
  induction isHome with
  | direct found _ =>
      rw [id_of_node? found]
      exact found
  | through _ _ _ induction => exact induction

theorem Home.named (isHome : graph.Home node home) : graph.isAnonymousGroup home = false := by
  induction isHome with
  | direct _ named => exact named
  | through _ _ _ induction => exact induction

theorem scope_kind {entries : List (Option Node)} {requested : List Id} {scope : Node}
    (built : build entries requested = .ok graph) (member : node ∈ graph.nodes)
    (found : graph.node? node.scope = some scope) :
    scope.kind = .file ∨ scope.kind.hasModule = true := by
  rcases build_scope_kind built member found with isFile | isStruct | isInterface
  · exact .inl isFile
  · exact .inr (by rw [isStruct]; rfl)
  · exact .inr (by rw [isInterface]; rfl)

theorem Home.kind {entries : List (Option Node)} {requested : List Id}
    (built : build entries requested = .ok graph) (isHome : graph.Home node home)
    (member : node ∈ graph.nodes) : home.kind = .file ∨ home.kind.hasModule = true := by
  induction isHome with
  | direct found _ => exact scope_kind built member found
  | through found _ _ induction => exact induction (mem_of_node? found)

theorem Home.chain (isHome : graph.Home node home) {scopes : List Node} {file : Node}
    (inner : node.kind ≠ .file) (chain : graph.ScopeChain node scopes file)
    (groups : ∀ group ∈ graph.nodes, group.isGroup = true → group.kind = .struct) :
    ∃ rest, graph.ScopeChain home rest file ∧ rest.length < scopes.length := by
  induction isHome generalizing scopes with
  | direct found _ =>
      obtain ⟨rest, rfl, outer⟩ := chain.above inner found
      exact ⟨rest, outer, Nat.lt_succ_self _⟩
  | @through _ group _ found anonymous _ induction =>
      obtain ⟨_, rfl, above⟩ := chain.above inner found
      have isStruct := groups group (mem_of_node? found) (Bool.and_eq_true_iff.mp anonymous).1
      obtain ⟨rest, outer, less⟩ := induction (by simp [isStruct]) above
      exact ⟨rest, outer, Nat.lt_succ_of_lt less⟩

theorem ScopeChain.exists_home {scopes : List Node} {file : Node} (chain : graph.ScopeChain node scopes file)
    (inner : node.kind ≠ .file)
    (groups : ∀ group ∈ graph.nodes, group.isGroup = true → group.kind = .struct) :
    ∃ home, graph.Home node home := by
  induction chain with
  | file isFile => exact absurd isFile inner
  | @up _ scope _ _ _ found _ induction =>
      by_cases anonymous : graph.isAnonymousGroup scope = true
      · have isStruct := groups scope (mem_of_node? found) (Bool.and_eq_true_iff.mp anonymous).1
        obtain ⟨home, outer⟩ := induction (by simp [isStruct])
        exact ⟨home, .through found anonymous outer⟩
      · exact ⟨scope, .direct found (by simpa using anonymous)⟩

/-- What an anonymous group is flattened into has the same identifier. -/
theorem Identifies.of_home {internal : String} (isHome : graph.Home node home)
    (module : node.kind.hasModule = true) (anonymous : graph.isAnonymousGroup node = true)
    (groups : ∀ group ∈ graph.nodes, group.isGroup = true → group.kind = .struct)
    (identified : graph.Identifies node internal) : graph.Identifies home internal := by
  induction isHome with
  | direct found named =>
      cases identified with
      | plain moduleless => simp_all
      | flattened _ _ found' outer =>
          rw [found] at found'
          cases found'
          exact outer
      | top _ named' _ _ => simp_all
      | inner _ named' _ _ _ => simp_all
  | @through _ group _ found inGroup _ induction =>
      cases identified with
      | plain moduleless => simp_all
      | flattened _ _ found' outer =>
          rw [found] at found'
          cases found'
          have isStruct := groups group (mem_of_node? found) (Bool.and_eq_true_iff.mp inGroup).1
          exact induction (by rw [isStruct]; rfl) inGroup outer
      | top _ named' _ _ => simp_all
      | inner _ named' _ _ _ => simp_all

/-- The identifier of a node with a class is its class name behind the identifier of its home. -/
theorem Identifies.split {internal : String} (isHome : graph.Home node home)
    (hasClass : graph.HasClass node)
    (groups : ∀ group ∈ graph.nodes, group.isGroup = true → group.kind = .struct)
    (identified : graph.Identifies node internal) :
    ∃ parent, graph.Identifies home parent ∧
      internal = Registry.qualify parent (node.segment (Registry.groupName graph node)) := by
  obtain ⟨module, named⟩ := hasClass
  cases identified with
  | plain moduleless => simp_all
  | flattened _ anonymous _ _ => simp_all
  | @top _ scope _ _ found inFile =>
      cases isHome with
      | direct found' _ =>
          rw [found] at found'
          cases found'
          exact ⟨"", .plain (by rw [inFile]; rfl), rfl⟩
      | through found' anonymous _ =>
          rw [found] at found'
          cases found'
          rw [is_anonymous_group_of_file inFile (groups _ (mem_of_node? found))] at anonymous
          cases anonymous
  | @inner _ scope parent _ _ found inScope outer =>
      cases isHome with
      | direct found' _ =>
          rw [found] at found'
          cases found'
          exact ⟨parent, outer, rfl⟩
      | through found' anonymous above =>
          rw [found] at found'
          cases found'
          have isStruct := groups _ (mem_of_node? found) (Bool.and_eq_true_iff.mp anonymous).1
          exact ⟨parent, outer.of_home above (by rw [isStruct]; rfl) anonymous groups, rfl⟩

theorem Identifies.of_file {internal : String} (identified : graph.Identifies node internal)
    (isFile : node.kind = .file) : internal = "" :=
  identified.unique (.plain (by rw [isFile]; rfl))

theorem Identifies.ne_empty_of_class {internal : String} (identified : graph.Identifies node internal)
    (hasClass : graph.HasClass node) : internal ≠ "" := by
  cases identified with
  | plain moduleless => exact absurd hasClass.1 (by simp [moduleless])
  | flattened _ anonymous _ _ => exact absurd hasClass.2 (by simp [anonymous])
  | top _ _ _ _ => exact Node.segment_ne_empty _ _
  | inner _ _ _ _ _ => exact Registry.qualify_ne_empty _ _ _

end Graph

namespace Registry

theorem qualify_inj {parent other segment name : String} (plain : '.' ∉ segment.toList)
    (plainName : '.' ∉ name.toList) (same : qualify parent segment = qualify other name) :
    parent = other ∧ segment = name := by
  have sameSegment : segment = name := by
    rw [← @after_last_qualify parent segment plain, same, after_last_qualify plainName]
  subst sameSegment
  refine ⟨?_, rfl⟩
  -- a class name alone has no point, and behind another one it has
  have apart : ∀ front : String, segment ≠ front ++ "." ++ segment := by
    intro front whole
    apply plain
    rw [whole]
    simp
  unfold qualify at same
  split at same
  · rename_i noParent
    split at same
    · rename_i noOther
      rw [beq_iff_eq.mp noParent, beq_iff_eq.mp noOther]
    · exact absurd same (apart other)
  · split at same
    · exact absurd same.symm (apart parent)
    · simpa using same

variable {graph : Graph}

/-- What is known of the nodes registered so far: a node with a class has claimed its name, and the
scope of a node was registered before it. -/
structure Held (graph : Graph) (registry : Registry) : Prop where
  canonical : registry.Canonical graph
  claimed : ∀ {node}, graph.node? node.id = some node → (registry.internal? node.id).isSome →
    graph.HasClass node → registry.segments.get?
      (node.scope, node.segment (groupName graph node)) = some node.id
  around : ∀ {node scope}, graph.node? node.id = some node → (registry.internal? node.id).isSome →
    node.kind.hasModule = true → graph.node? node.scope = some scope →
    scope.kind = .file ∨ (registry.internal? scope.id).isSome

theorem held_empty (graph : Graph) : Held graph {} :=
  { canonical := canonical_empty graph
    claimed := fun _ known => by cases known
    around := fun _ known => by cases known }

theorem claim_segment_state (node : Node) (segment : String) (registry : Registry) :
    ((claimSegment node segment).outcome registry).2 = registry ∨
      registry.segments.get? (node.scope, segment) = none ∧
        ((claimSegment node segment).outcome registry).2 =
          { registry with segments := registry.segments.set (node.scope, segment) node.id } := by
  simp only [claimSegment, Step.outcome_bind, Step.outcome_get]
  split
  · split
    · exact .inl rfl
    · exact .inl rfl
  · rename_i free
    exact .inr ⟨free, rfl⟩

theorem claim_segment_keeps_claim (node : Node) (segment : String) (key : Id × String) (owner : Id) :
    (claimSegment node segment).Keeps fun registry => registry.segments.get? key = some owner := by
  intro registry held
  rcases claim_segment_state node segment registry with same | ⟨free, same⟩
  · rw [same]
    exact held
  · rw [same, Table.get?_set]
    split
    · rename_i taken
      rw [taken, free] at held
      cases held
    · exact held

theorem register_from_keeps_claim (bound : Nat) (id : Id) (key : Id × String) (owner : Id) :
    (registerFrom graph bound id).Keeps fun registry => registry.segments.get? key = some owner :=
  register_from_keeps_parts _
    (fun node internal => record_keeps _ node internal fun _ _ _ claim => claim)
    (fun node segment => claim_segment_keeps_claim node segment key owner) bound id

theorem claim_segment_returns {node : Node} {segment : String} {before after : Registry}
    (returns : (claimSegment node segment).Returns before () after) :
    after.segments.get? (node.scope, segment) = some node.id := by
  unfold claimSegment at returns
  rw [Step.Returns.bind_iff] at returns
  obtain ⟨_, _, got, rest⟩ := returns
  obtain ⟨rfl, rfl⟩ := Step.Returns.get_iff.mp got
  split at rest
  · rename_i owner held
    split at rest
    · rename_i same
      obtain ⟨_, rfl⟩ := Step.Returns.pure_iff.mp rest
      rw [held, same]
    · exact (Step.Returns.fail_iff.mp rest).elim
  · cases Step.Returns.set_iff.mp rest
    simp

theorem claim_segment_held (node : Node) (segment : String) :
    (claimSegment node segment).Keeps (Held graph) := by
  intro registry held
  rcases claim_segment_state node segment registry with same | ⟨_, same⟩
  · rw [same]
    exact held
  · have persists := fun key owner => claim_segment_keeps_claim node segment key owner registry
    rw [same] at persists ⊢
    exact ⟨held.canonical, fun found known hasClass => persists _ _ (held.claimed found known hasClass),
      held.around⟩

/-- A node may be recorded once it has claimed its class name and its scope was registered. -/
theorem record_held {node : Node} {internal : String} {before : Registry} (held : before.Held graph)
    (found : graph.node? node.id = some node) (identified : graph.Identifies node internal)
    (claim : graph.HasClass node → before.segments.get?
      (node.scope, node.segment (groupName graph node)) = some node.id)
    (around : ∀ scope, node.kind.hasModule = true → graph.node? node.scope = some scope →
      scope.kind = .file ∨ (before.internal? scope.id).isSome) :
    ((record node internal).outcome before).2.Held graph := by
  have returns : (record node internal).Returns before internal
      ((record node internal).outcome before).2 := rfl
  obtain ⟨canonical, _⟩ := record_canonical held.canonical found identified returns
  obtain ⟨_, known⟩ := record_returns returns
  have earlier : ∀ id, (before.internal? id).isSome →
      (((record node internal).outcome before).2.internal? id).isSome := by
    intro id met
    rw [known]
    split
    · rfl
    · exact met
  refine ⟨canonical, fun {other} otherFound met hasClass => ?_,
    fun {other scope} otherFound met module scopeFound => ?_⟩
  · rw [known] at met
    split at met
    · rename_i same
      rw [same, found] at otherFound
      cases otherFound
      exact claim hasClass
    · exact held.claimed otherFound met hasClass
  · rw [known] at met
    split at met
    · rename_i same
      rw [same, found] at otherFound
      cases otherFound
      exact (around scope module scopeFound).imp id (earlier scope.id)
    · exact (held.around otherFound met module scopeFound).imp id (earlier scope.id)

theorem register_from_held (bound : Nat) (id : Id) :
    (registerFrom graph bound id).Keeps (Held graph) := by
  induction bound generalizing id with
  | zero => exact .of_fail _
  | succ bound induction =>
      unfold registerFrom
      refine .of_bind .of_get fun registry => ?_
      split
      · exact .of_pure _
      · split
        · exact .of_fail _
        · rename_i node found
          have same := Graph.id_of_node? found
          subst same
          split
          · rename_i moduleless
            have plain : node.kind.hasModule = false := by simpa using moduleless
            intro before held
            refine record_held held found (.plain plain) (fun hasClass => ?_) fun scope module => ?_
            · exact absurd hasClass.1 (by simp [plain])
            · exact absurd module (by simp [plain])
          · rename_i module
            have hasModule : node.kind.hasModule = true := by simpa using module
            split
            -- an anonymous group claims no class name
            · rename_i anonymous
              refine .of_bind_returns (induction _) fun before parent middle held returns reached => ?_
              obtain ⟨canonical, known⟩ := register_from_returns held.canonical returns
              obtain ⟨scope, scopeFound, outer⟩ := canonical _ _ known
              refine record_held reached found (.flattened hasModule anonymous scopeFound outer)
                (fun hasClass => ?_) fun other _ otherFound => ?_
              · exact absurd hasClass.2 (by simp [anonymous])
              · rw [Graph.id_of_node? otherFound, known]
                exact .inr rfl
            -- any other node claims its name and holds it while its scope is registered
            · rename_i notAnonymous
              have named : graph.isAnonymousGroup node = false := by simpa using notAnonymous
              refine .of_bind_returns (claim_segment_held _ _) fun before _ claimed held claims kept => ?_
              have claim := claim_segment_returns claims
              split
              · exact kept
              · rename_i scope scopeFound
                split
                · rename_i inFile
                  have isFile : scope.kind = .file := by simpa using inFile
                  refine record_held kept found (.top hasModule named scopeFound isFile)
                    (fun _ => claim) fun other _ otherFound => ?_
                  rw [scopeFound] at otherFound
                  cases otherFound
                  exact .inl isFile
                · rename_i inScope
                  have holding : (registerFrom graph bound scope.id).Keeps fun registry =>
                      registry.Held graph ∧ registry.segments.get?
                        (node.scope, node.segment (groupName graph node)) = some node.id :=
                    fun state start => ⟨induction scope.id state start.1,
                      register_from_keeps_claim bound scope.id _ _ state start.2⟩
                  refine (Step.Keeps.of_bind_returns holding ?_ claimed ⟨kept, claim⟩).1
                  rintro start parent middle ⟨heldStart, _⟩ returns ⟨reached, stillClaimed⟩
                  obtain ⟨canonical, known⟩ := register_from_returns heldStart.canonical returns
                  obtain ⟨outerNode, outerFound, outer⟩ := canonical _ _ known
                  rw [Graph.id_of_node? scopeFound, scopeFound] at outerFound
                  cases outerFound
                  refine ⟨record_held reached found
                    (.inner hasModule named scopeFound (by simpa using inScope) outer)
                    (fun _ => stillClaimed) fun other _ otherFound => ?_, stillClaimed⟩
                  rw [scopeFound] at otherFound
                  cases otherFound
                  rw [known]
                  exact .inr rfl

theorem Held.congr {one two : Registry} (held : one.Held graph)
    (internal : two.internal = one.internal) (segments : two.segments = one.segments) :
    two.Held graph := by
  have same : ∀ id, two.internal? id = one.internal? id := by
    intro id
    unfold internal?
    rw [internal]
  constructor
  · intro id value known
    exact held.canonical id value (same id ▸ known)
  · intro node found known
    rw [segments]
    exact held.claimed found (same node.id ▸ known)
  · intro node scope found known
    rw [same]
    exact held.around found (same node.id ▸ known)

theorem held_after (graph : Graph) (ids : List Id) :
    (after graph (ids.map .register)).Held graph := by
  induction ids using List.reverseRecOn with
  | nil => exact held_empty graph
  | append_singleton ids id induction =>
      rw [List.map_append, List.map_singleton, after_append_singleton]
      exact register_from_held _ id _ induction

theorem Held.identifies {registry : Registry} (held : registry.Held graph) {node : Node}
    {internal : String} (found : graph.node? node.id = some node)
    (known : registry.internal? node.id = some internal) : graph.Identifies node internal := by
  obtain ⟨_, same, identified⟩ := held.canonical _ _ known
  rw [found] at same
  cases same
  exact identified

/-- The home of a registered node was registered too, unless it is a file. -/
theorem Held.home_internal {registry : Registry} (held : registry.Held graph)
    {entries : List (Option Node)} {requested : List Id}
    (built : Graph.build entries requested = .ok graph) {node home : Node} {internal : String}
    (isHome : graph.Home node home) (found : graph.node? node.id = some node)
    (known : (registry.internal? node.id).isSome) (module : node.kind.hasModule = true)
    (homeModule : home.kind.hasModule = true) (identified : graph.Identifies home internal) :
    registry.internal? home.id = some internal := by
  have homeKnown : (registry.internal? home.id).isSome := by
    induction isHome with
    | direct scopeFound _ =>
        exact (held.around found known module scopeFound).resolve_left
          (Graph.kind_ne_file_of_has_module homeModule)
    | @through _ group _ scopeFound anonymous _ induction =>
        have isStruct := Graph.build_groups built group (Graph.mem_of_node? scopeFound)
          (Bool.and_eq_true_iff.mp anonymous).1
        have groupModule : group.kind.hasModule = true := by
          rw [isStruct]
          rfl
        refine induction ?_ ?_ groupModule homeModule identified
        · rw [Graph.id_of_node? scopeFound]
          exact scopeFound
        · exact (held.around found known module scopeFound).resolve_left
            (Graph.kind_ne_file_of_has_module groupModule)
  obtain ⟨value, held'⟩ := Option.isSome_iff_exists.mp homeKnown
  rw [held', (held.identifies isHome.found held').unique identified]

/-- Two registered nodes of a file with one identifier are one node. The identifiers are compared from
their ends: the class names are equal, and so are the identifiers of the homes, which are shorter. -/
theorem Held.eq_of_internal {registry : Registry} (held : registry.Held graph)
    {entries : List (Option Node)} {requested : List Id}
    (built : Graph.build entries requested = .ok graph) (undotted : graph.Undotted)
    (apart : graph.FlattenedApart) {file one two : Node} {oneScopes twoScopes : List Node}
    (oneChain : graph.ScopeChain one oneScopes file) (twoChain : graph.ScopeChain two twoScopes file)
    (oneFound : graph.node? one.id = some one) (twoFound : graph.node? two.id = some two)
    (oneClass : graph.HasClass one) (twoClass : graph.HasClass two) {internal : String}
    (oneKnown : registry.internal? one.id = some internal)
    (twoKnown : registry.internal? two.id = some internal) : one = two := by
  induction length : oneScopes.length using Nat.strong_induction_on
    generalizing one two oneScopes twoScopes internal with
  | _ count induction =>
      subst length
      have groups := Graph.build_groups built
      have oneInner := Graph.kind_ne_file_of_has_module oneClass.1
      have twoInner := Graph.kind_ne_file_of_has_module twoClass.1
      have oneMember := Graph.mem_of_node? oneFound
      have twoMember := Graph.mem_of_node? twoFound
      obtain ⟨oneHome, isOneHome⟩ := oneChain.exists_home oneInner groups
      obtain ⟨twoHome, isTwoHome⟩ := twoChain.exists_home twoInner groups
      obtain ⟨oneRest, oneAbove, shorter⟩ := isOneHome.chain oneInner oneChain groups
      obtain ⟨twoRest, twoAbove, _⟩ := isTwoHome.chain twoInner twoChain groups
      obtain ⟨parent, oneOuter, oneWhole⟩ :=
        (held.identifies oneFound oneKnown).split isOneHome oneClass groups
      obtain ⟨other, twoOuter, twoWhole⟩ :=
        (held.identifies twoFound twoKnown).split isTwoHome twoClass groups
      obtain ⟨rfl, sameSegment⟩ := qualify_inj (undotted.segment oneMember oneInner)
        (undotted.segment twoMember twoInner) (oneWhole.symm.trans twoWhole)
      have sameHome : oneHome = twoHome := by
        rcases isOneHome.kind built oneMember with oneFile | oneModule
        · rcases isTwoHome.kind built twoMember with twoFile | twoModule
          · have oneIs := (oneAbove.unique (.file oneFile)).2
            exact oneIs.symm.trans (twoAbove.unique (.file twoFile)).2
          · exact absurd (oneOuter.of_file oneFile) (twoOuter.ne_empty_of_class ⟨twoModule, isTwoHome.named⟩)
        · rcases isTwoHome.kind built twoMember with twoFile | twoModule
          · exact absurd (twoOuter.of_file twoFile) (oneOuter.ne_empty_of_class ⟨oneModule, isOneHome.named⟩)
          · exact induction _ shorter oneAbove twoAbove isOneHome.found isTwoHome.found
              ⟨oneModule, isOneHome.named⟩ ⟨twoModule, isTwoHome.named⟩
              (held.home_internal built isOneHome oneFound (by rw [oneKnown]; rfl) oneClass.1 oneModule
                oneOuter)
              (held.home_internal built isTwoHome twoFound (by rw [twoKnown]; rfl) twoClass.1 twoModule
                twoOuter) rfl
      subst sameHome
      by_cases sameScope : one.scope = two.scope
      · have oneClaim := held.claimed oneFound (by rw [oneKnown]; rfl) oneClass
        have twoClaim := held.claimed twoFound (by rw [twoKnown]; rfl) twoClass
        rw [sameScope, sameSegment, twoClaim] at oneClaim
        rw [← Option.some.inj oneClaim, twoFound] at oneFound
        exact (Option.some.inj oneFound).symm
      · exact absurd sameSegment
          (apart one oneMember two twoMember oneClass twoClass sameScope oneHome isOneHome isTwoHome)

/-- Whatever is registered in whatever order, two nodes of a file that have classes of their own hold
different identifiers, unless flattening brings two of one class name under one class. -/
theorem internal_distinct {entries : List (Option Node)} {requested : List Id}
    (built : Graph.build entries requested = .ok graph) (ends : graph.ScopesEnd)
    (undotted : graph.Undotted) (apart : graph.FlattenedApart) (ids : List Id) {one two : Node}
    (oneMember : one ∈ graph.nodes) (twoMember : two ∈ graph.nodes) (different : one ≠ two)
    (sameFile : graph.file one.id = graph.file two.id) (oneClass : graph.HasClass one)
    (twoClass : graph.HasClass two) {internal other : String}
    (oneKnown : (after graph (ids.map .register)).internal? one.id = some internal)
    (twoKnown : (after graph (ids.map .register)).internal? two.id = some other) :
    internal ≠ other := by
  rintro rfl
  have distinct := Graph.build_distinct built
  have oneFound := Graph.node?_of_mem distinct oneMember
  have twoFound := Graph.node?_of_mem distinct twoMember
  obtain ⟨file, inFile⟩ := ends.file_ok oneFound
  obtain ⟨_, oneChain⟩ := Graph.scope_chain_of_file oneFound inFile
  obtain ⟨_, twoChain⟩ := Graph.scope_chain_of_file twoFound (sameFile.symm.trans inFile)
  exact different ((held_after graph ids).eq_of_internal built undotted apart oneChain twoChain oneFound
    twoFound oneClass twoClass oneKnown twoKnown)

def top : Node :=
  { id := 1, kind := .file, name := "a", displayName := "a", nested := [2] }

def part (id scope : Id) (name : String) : Node :=
  { id, kind := .struct, isGroup := true, name, displayName := name, scope }

/-- A struct with a named group and an anonymous one that holds another named group. -/
def container (outer inner : String) : Graph where
  nodes := [
    top,
    { id := 2, kind := .struct, name := "S", displayName := "S", scope := 1,
      fields := [{ name := outer, kind := .group, group := 3 }, { kind := .group, group := 4 }] },
    part 3 2 outer,
    { id := 4, kind := .struct, isGroup := true, scope := 2,
      fields := [{ name := inner, kind := .group, group := 5 }] },
    part 5 4 inner]
  requested := [1]

theorem internal_distinct_container :
    Graph.build ((container "lid" "lock").nodes.map some) [1] = .ok (container "lid" "lock") ∧
      (after (container "lid" "lock") ([5, 3].map .register)).internal? (part 3 2 "lid").id =
        some "_SStructModule._LidGroupModule" ∧
      (after (container "lid" "lock") ([5, 3].map .register)).internal? (part 5 4 "lock").id =
        some "_SStructModule._LockGroupModule" ∧
      "_SStructModule._LidGroupModule" ≠ "_SStructModule._LockGroupModule" := by
  have built : Graph.build ((container "lid" "lock").nodes.map some) [1] =
    .ok (container "lid" "lock") := rfl
  have three : (after (container "lid" "lock") ([5, 3].map .register)).internal?
      (part 3 2 "lid").id = some "_SStructModule._LidGroupModule" := by decide +kernel
  have five : (after (container "lid" "lock") ([5, 3].map .register)).internal?
      (part 5 4 "lock").id = some "_SStructModule._LockGroupModule" := by decide +kernel
  have outerFile : (container "lid" "lock").file (part 3 2 "lid").id = .ok top := rfl
  have innerFile : (container "lid" "lock").file (part 5 4 "lock").id = .ok top := rfl
  have different : part 3 2 "lid" ≠ part 5 4 "lock" := by
    intro same
    have ids : (3 : Id) = 5 := congrArg Node.id same
    revert ids
    decide
  exact ⟨built, three, five, internal_distinct built (by decide +kernel) (by decide +kernel)
    (.of_nodup (by decide +kernel)) [5, 3] (by simp [container]) (by simp [container]) different
    (outerFile.trans innerFile.symm) (by decide +kernel) (by decide +kernel) three five⟩

/-- Of two groups named alike but for the spelling, one stands in an anonymous group. Both are
registered, and they hold one identifier. -/
theorem spellings_share_internal :
    Graph.build ((container "my_group" "myGroup").nodes.map some) [1] =
        .ok (container "my_group" "myGroup") ∧
      (container "my_group" "myGroup").ScopesEnd ∧ (container "my_group" "myGroup").Undotted ∧
      ∃ one ∈ (container "my_group" "myGroup").nodes,
      ∃ two ∈ (container "my_group" "myGroup").nodes, one ≠ two ∧
        (container "my_group" "myGroup").file one.id = (container "my_group" "myGroup").file two.id ∧
        (container "my_group" "myGroup").HasClass one ∧
        (container "my_group" "myGroup").HasClass two ∧ ∃ internal,
          (after (container "my_group" "myGroup") ([3, 5].map .register)).internal? one.id =
            some internal ∧
          (after (container "my_group" "myGroup") ([3, 5].map .register)).internal? two.id =
            some internal := by
  have outerFile : (container "my_group" "myGroup").file (part 3 2 "my_group").id = .ok top := rfl
  have innerFile : (container "my_group" "myGroup").file (part 5 4 "myGroup").id = .ok top := rfl
  refine ⟨rfl, by decide +kernel, by decide +kernel, part 3 2 "my_group", by simp [container],
    part 5 4 "myGroup", by simp [container], ?_, outerFile.trans innerFile.symm, by decide +kernel,
    by decide +kernel, "_SStructModule._MyGroupGroupModule", by decide +kernel, by decide +kernel⟩
  intro same
  have ids : (3 : Id) = 5 := congrArg Node.id same
  revert ids
  decide

end Registry

end SchemaStubs
