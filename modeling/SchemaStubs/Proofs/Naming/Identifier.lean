import SchemaStubs.Proofs.Naming.History
import SchemaStubs.Proofs.Schema.ScopeChain

/-!
The identifier of a node is the path of the classes around it. It is fixed by the nodes of the graph
alone, whatever files are requested from it: a registry that is asked in whatever order gives the same
answers, and where scope chains end the search for the scopes of a node always comes to an end.
-/

namespace SchemaStubs

/-- The identifier a node has by where it stands. -/
inductive Graph.Identifies (graph : Graph) : Node → String → Prop where
  | plain {node : Node} (moduleless : node.kind.hasModule = false) : Identifies graph node ""
  | flattened {node scope : Node} {internal : String} (module : node.kind.hasModule = true)
      (anonymous : graph.isAnonymousGroup node = true)
      (found : graph.node? node.scope = some scope) (outer : Identifies graph scope internal) :
      Identifies graph node internal
  | top {node scope : Node} (module : node.kind.hasModule = true)
      (named : graph.isAnonymousGroup node = false)
      (found : graph.node? node.scope = some scope) (inFile : scope.kind = .file) :
      Identifies graph node (node.segment (Registry.groupName graph node))
  | inner {node scope : Node} {parent : String} (module : node.kind.hasModule = true)
      (named : graph.isAnonymousGroup node = false)
      (found : graph.node? node.scope = some scope) (inScope : scope.kind ≠ .file)
      (outer : Identifies graph scope parent) :
      Identifies graph node
        (Registry.qualify parent (node.segment (Registry.groupName graph node)))

theorem Graph.Identifies.unique {graph : Graph} {node : Node} {one two : String}
    (first : graph.Identifies node one) (second : graph.Identifies node two) : one = two := by
  induction first generalizing two with
  | plain moduleless =>
      cases second <;> simp_all
  | flattened module anonymous found outer induction =>
      cases second with
      | plain moduleless => simp_all
      | flattened _ _ found' outer' =>
          rw [found] at found'
          cases found'
          exact induction outer'
      | top _ named _ _ => simp_all
      | inner _ named _ _ _ => simp_all
  | top module named found inFile =>
      cases second with
      | plain moduleless => simp_all
      | flattened _ anonymous _ _ => simp_all
      | top _ _ _ _ => rfl
      | inner _ _ found' inScope _ =>
          rw [found] at found'
          cases found'
          exact absurd inFile inScope
  | inner module named found inScope outer induction =>
      cases second with
      | plain moduleless => simp_all
      | flattened _ anonymous _ _ => simp_all
      | top _ _ found' inFile =>
          rw [found] at found'
          cases found'
          exact absurd inFile inScope
      | inner _ _ found' _ outer' =>
          rw [found] at found'
          cases found'
          rw [induction outer']

namespace Registry

def Canonical (graph : Graph) (registry : Registry) : Prop :=
  ∀ id internal, registry.internal? id = some internal →
    ∃ node, graph.node? id = some node ∧ graph.Identifies node internal

theorem canonical_empty (graph : Graph) : Canonical graph {} := by
  intro id internal known
  cases known

theorem record_returns {node : Node} {internal value : String} {before after : Registry}
    (returns : (record node internal).Returns before value after) :
    value = internal ∧ ∀ id, after.internal? id =
      if id = node.id then some internal else before.internal? id := by
  unfold record note at returns
  simp only [Step.Returns.bind_iff, Step.Returns.modify_iff, Step.Returns.pure_iff] at returns
  obtain ⟨_, _, rfl, _, _, rfl, rfl, rfl⟩ := returns
  exact ⟨rfl, fun id => Table.get?_set _ _ _ _⟩

theorem claim_segment_canonical {graph : Graph} {node : Node} {segment : String}
    {before after : Registry} (canonical : before.Canonical graph)
    (returns : (claimSegment node segment).Returns before () after) : after.Canonical graph :=
  (claim_segment_keeps (fun registry => registry.Canonical graph) node segment
    fun _ _ kept => kept).returns returns canonical

theorem record_canonical {graph : Graph} {node : Node} {internal value : String}
    {before after : Registry} (canonical : before.Canonical graph)
    (found : graph.node? node.id = some node) (identified : graph.Identifies node internal)
    (returns : (record node internal).Returns before value after) :
    after.Canonical graph ∧ after.internal? node.id = some value := by
  obtain ⟨rfl, known⟩ := record_returns returns
  refine ⟨?_, by simp [known]⟩
  intro id other held
  rw [known] at held
  split at held
  · rename_i same
    cases held
    exact ⟨node, same ▸ found, identified⟩
  · exact canonical id other held

/-- Registering answers with the identifier that the graph fixes, and the registry holds it from
then on. -/
theorem register_from_returns {graph : Graph} {bound : Nat} {id : Id} {before after : Registry}
    {internal : String} (canonical : before.Canonical graph)
    (returns : (registerFrom graph bound id).Returns before internal after) :
    after.Canonical graph ∧ after.internal? id = some internal := by
  induction bound generalizing id before after internal with
  | zero =>
      simp only [registerFrom, Step.Returns.fail_iff] at returns
  | succ bound induction =>
      unfold registerFrom at returns
      rw [Step.Returns.bind_iff] at returns
      obtain ⟨_, _, got, rest⟩ := returns
      obtain ⟨rfl, rfl⟩ := Step.Returns.get_iff.mp got
      split at rest
      · rename_i known
        obtain ⟨rfl, rfl⟩ := Step.Returns.pure_iff.mp rest
        exact ⟨canonical, known⟩
      · split at rest
        · exact (Step.Returns.fail_iff.mp rest).elim
        · rename_i node found
          have same := Graph.id_of_node? found
          subst same
          split at rest
          · rename_i moduleless
            exact record_canonical canonical found (.plain (by simpa using moduleless)) rest
          · rename_i module
            have hasModule : node.kind.hasModule = true := by simpa using module
            split at rest
            -- an anonymous group has the identifier of its scope
            · rename_i anonymous
              rw [Step.Returns.bind_iff] at rest
              obtain ⟨parent, middle, first, last⟩ := rest
              obtain ⟨next, known⟩ := induction canonical first
              obtain ⟨scope, scopeFound, outer⟩ := next _ _ known
              exact record_canonical next found
                (.flattened hasModule anonymous scopeFound outer) last
            -- any other node puts its own class name behind that of its scope
            · rename_i notAnonymous
              have named : graph.isAnonymousGroup node = false := by simpa using notAnonymous
              rw [Step.Returns.bind_iff] at rest
              obtain ⟨_, claimed, first, rest⟩ := rest
              have kept := claim_segment_canonical canonical first
              split at rest
              · exact (Step.Returns.fail_iff.mp rest).elim
              · rename_i scope scopeFound
                split at rest
                · rename_i inFile
                  exact record_canonical kept found
                    (.top hasModule named scopeFound (by simpa using inFile)) rest
                · rename_i inScope
                  rw [Step.Returns.bind_iff] at rest
                  obtain ⟨parent, middle, second, last⟩ := rest
                  obtain ⟨next, known⟩ := induction kept second
                  obtain ⟨outerNode, outerFound, outer⟩ := next _ _ known
                  rw [Graph.id_of_node? scopeFound, scopeFound] at outerFound
                  cases outerFound
                  exact record_canonical next found
                    (.inner hasModule named scopeFound (by simpa using inScope) outer) last

theorem register_known {graph : Graph} (id other : Id) :
    (register graph id).Keeps fun registry => (registry.internal? other).isSome := by
  refine register_from_keeps_parts _ (fun node internal => ?_) (fun node segment => ?_) _ _
  · refine .of_bind (.of_modify fun registry known => ?_) fun _ => ?_
    · unfold internal? at known ⊢
      rw [Table.get?_set]
      split
      · rfl
      · exact known
    · exact .of_bind (.of_modify fun _ known => known) fun _ => .of_pure _
  · exact claim_segment_keeps _ node segment fun _ _ known => known

theorem register_returns {graph : Graph} {id : Id} {before after : Registry} {internal : String}
    (canonical : before.Canonical graph)
    (returns : (register graph id).Returns before internal after) :
    after.Canonical graph ∧ after.internal? id = some internal :=
  register_from_returns canonical returns

end Registry

namespace Graph

variable {one two : Graph}

theorem node?_congr (same : one.nodes = two.nodes) (id : Id) : one.node? id = two.node? id := by
  rw [node?, node?, same]

theorem lookup_congr (same : one.nodes = two.nodes) (source id : Id) :
    one.lookup source id = two.lookup source id := by
  rw [lookup, lookup, node?_congr same]

theorem file_from_congr (same : one.nodes = two.nodes) (start : Id) (bound : Nat) (node : Node) :
    one.fileFrom start bound node = two.fileFrom start bound node := by
  induction bound generalizing node with
  | zero => rfl
  | succ bound induction => simp only [fileFrom, lookup_congr same, induction]

theorem file_congr (same : one.nodes = two.nodes) (id : Id) : one.file id = two.file id := by
  simp only [file, size, same, lookup_congr same, file_from_congr same]

theorem scopes_from_congr (same : one.nodes = two.nodes) (start : Id) (bound : Nat) (node : Node) :
    one.scopesFrom start bound node = two.scopesFrom start bound node := by
  induction bound generalizing node with
  | zero => rfl
  | succ bound induction => simp only [scopesFrom, lookup_congr same, induction]

theorem ancestors_congr (same : one.nodes = two.nodes) (id : Id) :
    one.ancestors id = two.ancestors id := by
  simp only [ancestors, size, same, lookup_congr same, scopes_from_congr same]

theorem group_field?_congr (same : one.nodes = two.nodes) (id : Id) :
    one.groupField? id = two.groupField? id := by
  simp only [groupField?, node?_congr same]

theorem is_anonymous_group_congr (same : one.nodes = two.nodes) (node : Node) :
    one.isAnonymousGroup node = two.isAnonymousGroup node := by
  rw [isAnonymousGroup, isAnonymousGroup, group_field?_congr same]

theorem group_name_congr (same : one.nodes = two.nodes) (node : Node) :
    Registry.groupName one node = Registry.groupName two node := by
  rw [Registry.groupName, Registry.groupName, group_field?_congr same]

theorem ScopeChain.congr (same : one.nodes = two.nodes) {node file : Node} {scopes : List Node}
    (chain : one.ScopeChain node scopes file) : two.ScopeChain node scopes file := by
  induction chain with
  | file isFile => exact .file isFile
  | up inner found _ induction => exact .up inner (node?_congr same _ ▸ found) induction

theorem ScopesEnd.congr (same : one.nodes = two.nodes) (ends : one.ScopesEnd) :
    two.ScopesEnd := by
  intro node member
  obtain ⟨scopes, file, chain⟩ := ends node (same ▸ member)
  exact ⟨scopes, file, chain.congr same⟩

theorem Identifies.congr (same : one.nodes = two.nodes) {node : Node} {internal : String}
    (identified : one.Identifies node internal) : two.Identifies node internal := by
  induction identified with
  | plain moduleless => exact .plain moduleless
  | flattened module anonymous found _ induction =>
      exact .flattened module (is_anonymous_group_congr same _ ▸ anonymous)
        (node?_congr same _ ▸ found) induction
  | top module named found inFile =>
      rw [group_name_congr same]
      exact .top module (is_anonymous_group_congr same _ ▸ named) (node?_congr same _ ▸ found) inFile
  | inner module named found inScope _ induction =>
      rw [group_name_congr same]
      exact .inner module (is_anonymous_group_congr same _ ▸ named) (node?_congr same _ ▸ found)
        inScope induction

end Graph

end SchemaStubs
