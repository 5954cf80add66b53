import SchemaStubs.Proofs.Naming.Segment
import SchemaStubs.Proofs.Stub.Inquiry
import SchemaStubs.Proofs.Stub.Preparation

/-!
What drafting a stub can rely on in a well-scoped graph. Whatever stands under a file was met by the
walk and has an identifier, and what it mentions in another file has the aliases of its kind.
-/

namespace SchemaStubs

/-- The anonymous groups of a file, which have no aliases, are not mentioned in other files except in
brands, which stubs do not show. -/
def Graph.GroupsStayHome (graph : Graph) : Prop :=
  ∀ node ∈ graph.nodes, ∀ via target body, via ≠ .brand → node.Mentions via target →
    graph.node? target = some body → graph.isAnonymousGroup body = true →
      graph.file node.id = graph.file target

theorem Graph.Identifies.ne_empty {graph : Graph} (wellScoped : graph.WellScoped) {node : Node}
    {internal : String} (identified : graph.Identifies node internal)
    (member : node ∈ graph.nodes) (module : node.kind.hasModule = true) : internal ≠ "" := by
  induction identified with
  | plain moduleless =>
      rw [moduleless] at module
      cases module
  | @flattened node scope _ _ anonymous found _ induction =>
      apply induction (mem_of_node? found)
      have isGroup : node.isGroup = true := by
        unfold isAnonymousGroup at anonymous
        simp only [Bool.and_eq_true] at anonymous
        exact anonymous.1
      have inner : node.kind ≠ .file := by
        intro isFile
        rw [isFile] at module
        cases module
      obtain ⟨other, otherFound, place⟩ := wellScoped.inScope node member inner
      rw [found] at otherFound
      cases otherFound
      rw [if_pos isGroup] at place
      rw [place.1]
      rfl
  | top _ _ _ _ => exact Node.segment_ne_empty _ _
  | inner _ _ _ _ _ => exact Registry.qualify_ne_empty _ _ _

namespace Stub

structure Ready (plan : Plan) (registry : Registry) : Prop where
  wellScoped : plan.graph.WellScoped
  checked : ∀ node ∈ plan.graph.nodes, node.check plan.graph.nodes = .ok ()
  forest : plan.graph.Forest
  located : plan.Located
  resolved : registry.resolved = true
  closed : ∀ id ∈ plan.order, ∀ node, plan.graph.node? id = some node →
    ∀ dependency ∈ node.dependencies, dependency.target ∈ plan.order ∧
      Walk.Fits plan.graph dependency
  identified : ∀ node, node.id ∈ plan.order → plan.graph.node? node.id = some node →
    node.kind.hasModule = true → ∃ internal, registry.internal? node.id = some internal ∧
      plan.graph.Identifies node internal ∧ internal ≠ ""
  has : ∀ node, node.id ∈ plan.order → plan.graph.node? node.id = some node →
    plan.graph.isAnonymousGroup node = false → ∀ role ∈ kindRoles node.kind,
      registry.Has { node := node.id } role

theorem Ready.of_prepared {entries : List (Option Node)} {requested : List Id} {plan : Plan}
    (built : Graph.build entries requested = .ok plan.graph) (wellScoped : plan.graph.WellScoped)
    {asked registry : Registry} (prepared : Prepared plan asked registry)
    (inquiry : Inquiry plan.graph (declaringFiles plan.graph plan.order) asked) :
    Ready plan registry where
  wellScoped := wellScoped
  checked := (Graph.build_ok built).2.2.2.2
  forest := wellScoped.forest built
  located := prepared.plan_located
  resolved := prepared.resolved
  closed id member node found dependency listed := by
    obtain ⟨met, fits, _⟩ := prepared.closed id member node found dependency listed
    exact ⟨met, fits⟩
  identified node met found module := by
    obtain ⟨other, internal, sameNode, identified, held⟩ := prepared.identified node.id met
    rw [found] at sameNode
    cases sameNode
    exact ⟨internal, held, identified,
      identified.ne_empty wellScoped (Graph.mem_of_node? found) module⟩
  has node met found named role inRole :=
    inquiry.has wellScoped prepared.resolves met found named inRole

structure Within (plan : Plan) (file node : Node) (scopes : List Node) : Prop where
  met : node.id ∈ plan.order
  found : plan.graph.node? node.id = some node
  chain : plan.graph.ScopeChain node scopes file

namespace Within

variable {plan : Plan} {registry : Registry} {file node : Node} {scopes : List Node}

theorem inFile (within : Within plan file node scopes) : plan.graph.file node.id = .ok file :=
  Graph.file_eq_ok_iff.mpr ⟨node, scopes, within.found, within.chain⟩

theorem short (within : Within plan file node scopes) : scopes.length ≤ plan.graph.size :=
  within.chain.length_le

theorem members (within : Within plan file node scopes) (ready : Ready plan registry) :
    node.checkMembers plan.graph.nodes = .ok () :=
  (Node.check_ok (ready.checked node (Graph.mem_of_node? within.found))).2.2.2

theorem of_target (within : Within plan file node scopes) (ready : Ready plan registry)
    {dependency : Dependency} (listed : dependency ∈ node.dependencies) :
    dependency.target ∈ plan.order ∧ Walk.Fits plan.graph dependency :=
  ready.closed node.id within.met node within.found dependency listed

theorem child (within : Within plan file node scopes) (ready : Ready plan registry) {id : Id}
    (under : id ∈ node.children) : ∃ child, plan.graph.node? id = some child ∧
      child.kind ≠ .file ∧ Within plan file child (node :: scopes) := by
  obtain ⟨child, found, notFile, scopeFound⟩ :=
    ready.forest.child node (Graph.mem_of_node? within.found) id under
  refine ⟨child, found, notFile, ?_, ?_, .up notFile scopeFound within.chain⟩
  · rw [Graph.id_of_node? found]
    rcases List.mem_append.mp under with nested | group
    · have listed : ⟨.nested, id, none⟩ ∈ node.dependencies :=
        List.mem_append_left _ (List.mem_map_of_mem nested)
      exact (within.of_target ready listed).1
    · obtain ⟨field, kept, rfl⟩ := List.mem_map.mp group
      obtain ⟨member, isGroup⟩ := List.mem_filter.mp kept
      have isStruct := ready.wellScoped.isStruct (Graph.mem_of_node? within.found) member
      obtain ⟨wanted, listed⟩ :=
        Node.mem_dependencies_of_mentions (.group isStruct member isGroup)
      exact (within.of_target ready listed).1
  · rw [Graph.id_of_node? found]
    exact found

theorem groupBody (within : Within plan file node scopes) (ready : Ready plan registry)
    {field : Field} (member : field ∈ node.fields) (isGroup : field.isGroup = true) :
    ∃ body, plan.graph.node? field.group = some body ∧ body.kind = .struct ∧
      body.isGroup = true ∧ Within plan file body (node :: scopes) := by
  have isStruct := ready.wellScoped.isStruct (Graph.mem_of_node? within.found) member
  have under : field.group ∈ node.children :=
    List.mem_append_right _ (List.mem_map_of_mem (List.mem_filter.mpr ⟨member, isGroup⟩))
  obtain ⟨body, found, _, inside⟩ := within.child ready under
  obtain ⟨other, otherFound, kind, group⟩ :=
    Node.check_members_group (within.members ready) isStruct member isGroup
  have same : plan.graph.node? field.group = some other := otherFound
  rw [found] at same
  cases same
  exact ⟨body, found, kind, group, inside⟩

end Within

end Stub

end SchemaStubs
