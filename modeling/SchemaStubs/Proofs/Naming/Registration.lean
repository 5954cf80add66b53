import SchemaStubs.Proofs.Naming.Distinct
import SchemaStubs.Proofs.Text.Joined

/-!
Registering in any order. The identifier of a node is the path of the class names around it, whatever
was registered before. A list of nodes can be registered in one order exactly if it can be in every
order: the classes on the paths to them must not claim one name in one scope. Files, constants and
annotations have no class and need none of the classes they stand in.
-/

namespace SchemaStubs

namespace Graph

variable {graph : Graph} {node file : Node} {scopes : List Node}

/-- The class names of nodes; anonymous groups have none. -/
def segmentsOf (graph : Graph) (nodes : List Node) : List String :=
  (nodes.filter fun node => !graph.isAnonymousGroup node).map fun node =>
    node.segment (Registry.groupName graph node)

/-- A node is on the path to another one that has a class or shares one. -/
def OnPath (graph : Graph) (id : Id) (node : Node) : Prop :=
  ∃ last scopes, graph.node? id = some last ∧ last.kind.hasModule = true ∧
    graph.ancestors id = .ok scopes ∧ node ∈ scopes ++ [last]

/-- No two classes on the paths to some nodes, however many, have one name in one scope. -/
def Apart (graph : Graph) (chosen : Id → Prop) : Prop :=
  ∀ one two, graph.HasClass one → graph.HasClass two → (∃ id, chosen id ∧ graph.OnPath id one) →
    (∃ id, chosen id ∧ graph.OnPath id two) → one.scope = two.scope →
    one.segment (Registry.groupName graph one) = two.segment (Registry.groupName graph two) → one = two

/-- No two classes on the paths to the nodes of a list have one name in one scope. -/
def Unambiguous (graph : Graph) (ids : List Id) : Prop :=
  graph.Apart (· ∈ ids)

theorem segments_of_append (graph : Graph) (ones twos : List Node) :
    graph.segmentsOf (ones ++ twos) = graph.segmentsOf ones ++ graph.segmentsOf twos := by
  unfold segmentsOf
  rw [List.filter_append, List.map_append]

theorem ne_empty_of_mem_segments_of {nodes : List Node} {name : String}
    (member : name ∈ graph.segmentsOf nodes) : name ≠ "" := by
  obtain ⟨node, _, rfl⟩ := List.mem_map.mp member
  exact Node.segment_ne_empty _ _

end Graph

theorem Registry.qualify_join_with {names : List String} (present : ∀ name ∈ names, name ≠ "")
    (segment : String) :
    qualify (Text.joinWith "." names) segment = Text.joinWith "." (names ++ [segment]) := by
  unfold qualify
  cases names with
  | nil => rfl
  | cons name rest =>
      have whole : Text.joinWith "." (name :: rest) ≠ "" :=
        Text.join_with_ne_empty (List.cons_ne_nil _ _) present
      rw [Text.join_with_append_singleton _ _ (List.cons_ne_nil _ _), if_neg (by simpa using whole)]

namespace Graph

variable {graph : Graph} {node file : Node} {scopes : List Node}

theorem Identifies.eq_join_with {entries : List (Option Node)} {requested : List Id}
    (built : build entries requested = .ok graph) {internal : String}
    (identified : graph.Identifies node internal) (member : node ∈ graph.nodes)
    (kind : node.kind = .file ∨ node.kind.hasModule = true)
    (chain : graph.ScopeChain node scopes file) :
    internal = Text.joinWith "." (graph.segmentsOf ((node :: scopes).filter isInner).reverse) := by
  induction identified generalizing scopes with
  | plain moduleless =>
      rcases kind with isFile | module
      · cases chain with
        | file _ => simp [isInner, isFile, segmentsOf, Text.joinWith]
        | up inner _ _ => exact absurd isFile inner
      · rw [moduleless] at module
        cases module
  | @flattened group scope _ module anonymous found _ induction =>
      have inner := kind_ne_file_of_has_module module
      obtain ⟨_, rfl, above⟩ := chain.above inner found
      have same := induction (mem_of_node? found) (scope_kind built member found) above
      have own : graph.segmentsOf [group] = [] := by simp [segmentsOf, anonymous]
      rw [List.filter_cons_of_pos (by simpa [isInner] using inner), List.reverse_cons,
        segments_of_append, own, List.append_nil]
      exact same
  | @top _ scope module named found inFile =>
      have inner := kind_ne_file_of_has_module module
      obtain ⟨_, rfl, above⟩ := chain.above inner found
      cases above with
      | file _ => simp [isInner, inner, inFile, segmentsOf, named, Text.joinWith]
      | up inner' _ _ => exact absurd inFile inner'
  | @inner child scope parent module named found inScope _ induction =>
      have inner := kind_ne_file_of_has_module module
      obtain ⟨_, rfl, above⟩ := chain.above inner found
      have same := induction (mem_of_node? found) (scope_kind built member found) above
      have own : graph.segmentsOf [child] = [child.segment (Registry.groupName graph child)] := by
        simp [segmentsOf, named]
      rw [List.filter_cons_of_pos (by simpa [isInner] using inner), List.reverse_cons,
        segments_of_append, own, ← Registry.qualify_join_with, ← same]
      exact fun name => ne_empty_of_mem_segments_of

theorem OnPath.of_chain {id : Id} (chain : graph.ScopeChain node scopes file)
    (found : graph.node? id = some node) (module : node.kind.hasModule = true) {other : Node}
    (member : other ∈ node :: scopes) (hasClass : graph.HasClass other) : graph.OnPath id other := by
  refine ⟨node, _, found, module, chain.ancestors_eq found, ?_⟩
  rw [List.mem_append, List.mem_singleton, List.mem_reverse, List.mem_filter]
  rcases List.mem_cons.mp member with rfl | above
  · exact .inr rfl
  · refine .inl ⟨above, ?_⟩
    simpa [isInner] using kind_ne_file_of_has_module hasClass.1

theorem OnPath.chain {id : Id} {other : Node} (ends : graph.ScopesEnd) (onPath : graph.OnPath id other) :
    ∃ node scopes file, graph.node? id = some node ∧ node.kind.hasModule = true ∧
      graph.ScopeChain node scopes file ∧ other ∈ node :: scopes := by
  obtain ⟨node, around, found, module, above, member⟩ := onPath
  obtain ⟨scopes, file, chain⟩ := ends node (mem_of_node? found)
  rw [chain.ancestors_eq found] at above
  cases above
  refine ⟨node, scopes, file, found, module, chain, ?_⟩
  rw [List.mem_append, List.mem_singleton, List.mem_reverse, List.mem_filter] at member
  rcases member with ⟨above, _⟩ | rfl
  · exact List.mem_cons_of_mem _ above
  · exact List.mem_cons_self

end Graph

namespace Registry

variable {graph : Graph}

/-- Registering the nodes one after the other on an empty registry succeeds for each. -/
def Registers (graph : Graph) (ids : List Id) : Prop :=
  ∃ internals reached, (ids.mapM (register graph)).Returns {} internals reached

section Necessity

theorem Held.known_above {registry : Registry} (held : registry.Held graph)
    {entries : List (Option Node)} {requested : List Id}
    (built : Graph.build entries requested = .ok graph) {node file : Node} {scopes : List Node}
    (chain : graph.ScopeChain node scopes file) (found : graph.node? node.id = some node)
    (known : (registry.internal? node.id).isSome) (module : node.kind.hasModule = true) :
    ∀ other ∈ node :: scopes, other.kind.hasModule = true →
      graph.node? other.id = some other ∧ (registry.internal? other.id).isSome := by
  induction chain with
  | file isFile => exact absurd isFile (Graph.kind_ne_file_of_has_module module)
  | @up node scope _ rest _ scopeFound above induction =>
      intro other member otherModule
      rcases List.mem_cons.mp member with rfl | later
      · exact ⟨found, known⟩
      · have scopeMet : graph.node? scope.id = some scope := by
          rw [Graph.id_of_node? scopeFound]
          exact scopeFound
        rcases Graph.scope_kind built (Graph.mem_of_node? found) scopeFound with isFile | scopeModule
        · cases above with
          | file _ =>
              rw [List.mem_singleton.mp later] at otherModule
              exact absurd isFile (Graph.kind_ne_file_of_has_module otherModule)
          | up inner _ _ => exact absurd isFile inner
        · have scopeKnown := (held.around found known module scopeFound).resolve_left
            (Graph.kind_ne_file_of_has_module scopeModule)
          exact induction scopeMet scopeKnown scopeModule other later otherModule

theorem Registers.held {ids : List Id} (registers : Registers graph ids) :
    ∃ registry : Registry, registry.Held graph ∧ ∀ id ∈ ids, (registry.internal? id).isSome := by
  obtain ⟨internals, reached, returns⟩ := registers
  refine ⟨reached, ?_⟩
  refine Step.Returns.mapM_stages (fun done _ registry => registry.Held graph ∧
    ∀ id ∈ done, (registry.internal? id).isSome) ?_ returns ⟨held_empty graph, by simp⟩
  rintro done id rest _ _ internal before after step ⟨held, known⟩
  refine ⟨(register_from_held _ id).returns step held, ?_⟩
  intro other member
  rcases List.mem_append.mp member with earlier | here
  · exact (register_known id other).returns step (known other earlier)
  · rw [List.mem_singleton.mp here, (register_returns held.canonical step).2]
    rfl

/-- What was registered claims no name twice, because a claim has one owner. -/
theorem Held.apart {registry : Registry} (held : registry.Held graph) {entries : List (Option Node)}
    {requested : List Id} (built : Graph.build entries requested = .ok graph)
    (ends : graph.ScopesEnd) {chosen : Id → Prop}
    (known : ∀ id, chosen id → (registry.internal? id).isSome) : graph.Apart chosen := by
  have claim : ∀ node, graph.HasClass node → (∃ id, chosen id ∧ graph.OnPath id node) →
      graph.node? node.id = some node ∧
        registry.segments.get? (node.scope, node.segment (groupName graph node)) = some node.id := by
    rintro node hasClass ⟨id, isChosen, onPath⟩
    obtain ⟨last, scopes, file, found, module, chain, inChain⟩ := onPath.chain ends
    have same := Graph.id_of_node? found
    subst same
    obtain ⟨nodeFound, nodeKnown⟩ :=
      held.known_above built chain found (known _ isChosen) module node inChain hasClass.1
    exact ⟨nodeFound, held.claimed nodeFound nodeKnown hasClass⟩
  intro one two oneClass twoClass oneNeeded twoNeeded sameScope sameName
  obtain ⟨oneFound, oneClaim⟩ := claim one oneClass oneNeeded
  obtain ⟨twoFound, twoClaim⟩ := claim two twoClass twoNeeded
  rw [sameScope, sameName, twoClaim] at oneClaim
  rw [← Option.some.inj oneClaim, twoFound] at oneFound
  exact (Option.some.inj oneFound).symm

theorem Registers.unambiguous {entries : List (Option Node)} {requested : List Id}
    (built : Graph.build entries requested = .ok graph) (ends : graph.ScopesEnd) {ids : List Id}
    (registers : Registers graph ids) : graph.Unambiguous ids := by
  obtain ⟨registry, held, known⟩ := registers.held
  exact held.apart built ends known

theorem Registers.found {ids : List Id} (registers : Registers graph ids) :
    ∀ id ∈ ids, (graph.node? id).isSome := by
  obtain ⟨registry, held, known⟩ := registers.held
  intro id member
  obtain ⟨internal, recorded⟩ := Option.isSome_iff_exists.mp (known id member)
  obtain ⟨node, found, _⟩ := held.canonical id internal recorded
  rw [found]
  rfl

end Necessity

section Sufficiency

variable {admitted : Node → Prop}

def Owned (graph : Graph) (admitted : Node → Prop) (registry : Registry) : Prop :=
  ∀ key owner, registry.segments.get? key = some owner → ∃ node, admitted node ∧
    node.id = owner ∧ key = (node.scope, node.segment (groupName graph node))

theorem record_succeeds (node : Node) (internal : String) :
    (record node internal).Succeeds (Owned graph admitted) := by
  apply Step.Succeeds.of_bind
  · exact .of_modify fun _ owned => owned
  · intro _
    apply Step.Succeeds.of_bind
    · exact .of_modify fun _ owned => owned
    · exact fun _ => .of_pure _

theorem claim_segment_succeeds
    (single : ∀ one two, admitted one → admitted two → one.scope = two.scope →
      one.segment (groupName graph one) = two.segment (groupName graph two) → one = two)
    {node : Node} (admits : admitted node) :
    (claimSegment node (node.segment (groupName graph node))).Succeeds (Owned graph admitted) := by
  apply Step.Succeeds.of_get_bind
  intro registry owned
  split
  · rename_i owner claim
    obtain ⟨other, otherAdmits, same, key⟩ := owned _ _ claim
    have one := single node other admits otherAdmits (congrArg Prod.fst key) (congrArg Prod.snd key)
    rw [if_pos (by rw [one, same])]
    exact .of_pure _
  · apply Step.Succeeds.of_set
    intro key owner held
    rw [Table.get?_set] at held
    split at held
    · rename_i same
      cases held
      exact ⟨node, admits, rfl, same⟩
    · exact owned key owner held

/-- By induction on the bound, which the chain of a node stays below: each class on the way finds its
name free. -/
theorem register_from_succeeds (single : ∀ one two, admitted one → admitted two →
      one.scope = two.scope →
      one.segment (groupName graph one) = two.segment (groupName graph two) → one = two)
    {bound : Nat} {id : Id} {node file : Node} {scopes : List Node}
    (chain : graph.ScopeChain node scopes file) (found : graph.node? id = some node)
    (enough : scopes.length < bound)
    (admits : node.kind.hasModule = true →
      ∀ other ∈ node :: scopes, graph.HasClass other → admitted other) :
    (registerFrom graph bound id).Succeeds (Owned graph admitted) := by
  induction bound generalizing id node scopes with
  | zero => cases enough
  | succ bound induction =>
      apply Step.Succeeds.of_get_bind
      intro registry _
      split
      · exact .of_pure _
      · simp only [found]
        split
        · exact record_succeeds node ""
        · rename_i module
          have hasModule : node.kind.hasModule = true := by simpa using module
          cases chain with
          | file isFile => exact absurd isFile (Graph.kind_ne_file_of_has_module hasModule)
          | @up _ scope _ rest _ scopeFound above =>
              have below : rest.length < bound := by simpa using enough
              have around : scope.kind.hasModule = true →
                  ∀ other ∈ scope :: rest, graph.HasClass other → admitted other :=
                fun _ other member => admits hasModule other (List.mem_cons_of_mem _ member)
              split
              · apply Step.Succeeds.of_bind (induction above scopeFound below around)
                exact fun parent => record_succeeds node parent
              · rename_i named
                have hasClass : graph.HasClass node := ⟨hasModule, by simpa using named⟩
                apply Step.Succeeds.of_bind
                · exact claim_segment_succeeds single (admits hasModule node List.mem_cons_self hasClass)
                · intro _
                  simp only [scopeFound]
                  split
                  · exact record_succeeds node _
                  · have scopeMet := scopeFound
                    rw [← Graph.id_of_node? scopeFound] at scopeMet
                    apply Step.Succeeds.of_bind (induction above scopeMet below around)
                    exact fun parent => record_succeeds node _

/-- Where the classes on the paths to some nodes are told apart, each of these can be registered. -/
theorem register_succeeds (ends : graph.ScopesEnd) {chosen : Id → Prop}
    (apart : graph.Apart chosen) {id : Id} (isChosen : chosen id) {node : Node}
    (found : graph.node? id = some node) :
    (register graph id).Succeeds
      (Owned graph fun node => graph.HasClass node ∧ ∃ id, chosen id ∧ graph.OnPath id node) := by
  have single := fun one two
      (oneAdmits : graph.HasClass one ∧ ∃ id, chosen id ∧ graph.OnPath id one)
      (twoAdmits : graph.HasClass two ∧ ∃ id, chosen id ∧ graph.OnPath id two) =>
    apart one two oneAdmits.1 twoAdmits.1 oneAdmits.2 twoAdmits.2
  obtain ⟨scopes, file, chain⟩ := ends node (Graph.mem_of_node? found)
  apply register_from_succeeds single chain found (Nat.lt_succ_of_le chain.length_le)
  intro module other inChain hasClass
  exact ⟨hasClass, id, isChosen, .of_chain chain found module inChain hasClass⟩

theorem owned_empty (graph : Graph) (admitted : Node → Prop) : Owned graph admitted {} := by
  intro key owner held
  cases held

theorem Registers.of_unambiguous (ends : graph.ScopesEnd) {ids : List Id}
    (found : ∀ id ∈ ids, (graph.node? id).isSome) (unambiguous : graph.Unambiguous ids) :
    Registers graph ids := by
  have apart : graph.Apart (· ∈ ids) := unambiguous
  have succeeds := Step.Succeeds.of_mapM fun id (member : id ∈ ids) =>
    register_succeeds ends apart member (Option.get_mem (found id member))
  obtain ⟨internals, reached, returns, _⟩ := succeeds {} (owned_empty graph _)
  exact ⟨internals, reached, returns⟩

end Sufficiency

theorem registers_iff {entries : List (Option Node)} {requested : List Id}
    (built : Graph.build entries requested = .ok graph) (ends : graph.ScopesEnd) (ids : List Id) :
    Registers graph ids ↔ (∀ id ∈ ids, (graph.node? id).isSome) ∧ graph.Unambiguous ids := by
  constructor
  · intro registers
    exact ⟨registers.found, registers.unambiguous built ends⟩
  · rintro ⟨found, unambiguous⟩
    exact .of_unambiguous ends found unambiguous

theorem registers_perm {entries : List (Option Node)} {requested : List Id}
    (built : Graph.build entries requested = .ok graph) (ends : graph.ScopesEnd) {ids order : List Id}
    (perm : order.Perm ids) : Registers graph order ↔ Registers graph ids := by
  rw [registers_iff built ends, registers_iff built ends]
  unfold Graph.Unambiguous Graph.Apart
  simp only [perm.mem_iff]

/-- Whatever was registered before, a node gets the path of class names down to it, or nothing if it
has no class. Nodes can be registered in one order exactly if they can in every order, namely if no
two of the classes on the paths to them have one name in one scope. -/
theorem register_in_any_order {entries : List (Option Node)} {requested : List Id}
    (built : Graph.build entries requested = .ok graph) (ends : graph.ScopesEnd) :
    (∀ (ids : List Id) (id : Id) (internal : String) (reached : Registry),
      (register graph id).Returns (after graph (ids.map .register)) internal reached →
        ∃ node scopes, graph.node? id = some node ∧ graph.ancestors id = .ok scopes ∧
          internal = if node.kind.hasModule then
            Text.joinWith "." (graph.segmentsOf (scopes ++ [node])) else "") ∧
      ∀ ids : List Id,
        ((∃ order, order.Perm ids ∧ Registers graph order) ↔
          ∀ order, order.Perm ids → Registers graph order) ∧
        (Registers graph ids ↔
          (∀ id ∈ ids, (graph.node? id).isSome) ∧ graph.Unambiguous ids) := by
  constructor
  · intro ids id internal reached returns
    obtain ⟨canonical, known⟩ := register_returns (held_after graph ids).canonical returns
    obtain ⟨node, found, identified⟩ := canonical id internal known
    obtain ⟨scopes, file, chain⟩ := ends node (Graph.mem_of_node? found)
    refine ⟨node, _, found, chain.ancestors_eq found, ?_⟩
    split
    · rename_i module
      have inner : Graph.isInner node = true := by
        simpa [Graph.isInner] using Graph.kind_ne_file_of_has_module module
      rw [identified.eq_join_with built (Graph.mem_of_node? found) (.inr module) chain,
        List.filter_cons_of_pos inner, List.reverse_cons]
    · rename_i moduleless
      exact identified.unique (.plain (by simpa using moduleless))
  · intro ids
    refine ⟨⟨?_, ?_⟩, registers_iff built ends ids⟩
    · rintro ⟨one, perm, registers⟩ order others
      exact (registers_perm built ends (others.trans perm.symm)).mpr registers
    · intro all
      exact ⟨ids, .refl ids, all ids (.refl ids)⟩

theorem register_in_any_order_container :
    Graph.build ((container "lid" "lock").nodes.map some) [1] = .ok (container "lid" "lock") ∧
      (container "lid" "lock").ScopesEnd ∧
      ∀ order : List Id, order.Perm [5, 3, 1] → Registers (container "lid" "lock") order := by
  have built : Graph.build ((container "lid" "lock").nodes.map some) [1] =
    .ok (container "lid" "lock") := rfl
  have ends : (container "lid" "lock").ScopesEnd := by decide +kernel
  refine ⟨built, ends, ?_⟩
  apply ((register_in_any_order built ends).2 [5, 3, 1]).1.mp
  exact ⟨[5, 3, 1], .refl _, _, _, rfl⟩

def drawers : Graph where
  nodes := [
    { id := 1, kind := .file, name := "a", displayName := "a", nested := [2, 3] },
    { id := 2, kind := .struct, name := "S", displayName := "S", scope := 1, nested := [4] },
    { id := 3, kind := .struct, name := "S", displayName := "S", scope := 1, nested := [5] },
    { id := 4, kind := .const, name := "x", displayName := "x", scope := 2,
      constType := some { kind := .int32 } },
    { id := 5, kind := .const, name := "y", displayName := "y", scope := 3,
      constType := some { kind := .int32 } }]
  requested := [1]

/-- The structs around two constants may share a name: the constants are registered without them. -/
theorem constants_register_alone :
    Graph.build (drawers.nodes.map some) [1] = .ok drawers ∧ drawers.ScopesEnd ∧
      Registers drawers [4, 5] ∧ ∃ one two, one ≠ two ∧ drawers.ancestors 4 = .ok [one] ∧
        drawers.ancestors 5 = .ok [two] ∧ drawers.HasClass one ∧ drawers.HasClass two ∧
        one.scope = two.scope ∧
        one.segment (groupName drawers one) = two.segment (groupName drawers two) := by
  refine ⟨rfl, by decide +kernel, ⟨_, _, rfl⟩, drawers.nodes[1], drawers.nodes[2], ?_, rfl, rfl,
    by decide +kernel, by decide +kernel, rfl, rfl⟩
  intro same
  have ids : (2 : Id) = 3 := congrArg Node.id same
  revert ids
  decide

end Registry

end SchemaStubs
