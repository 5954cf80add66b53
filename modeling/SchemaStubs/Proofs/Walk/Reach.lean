import Mathlib.Logic.Relation
import SchemaStubs.Proofs.Naming.Identifier
import SchemaStubs.Proofs.Walk.Failure

/-!
What a walk reaches. The invariant ties the marks, the order and the edges to the stack of nodes
under way; when the stack is empty every node met is complete, and the nodes met are those that
the roots lead to.
-/

namespace SchemaStubs.Walk

/-- The marks, the order and the edges of a walk fit the nodes under way. -/
structure Traverses (graph : Graph) (roots : List Id) (frames : List Frame) (walk : Walk) :
    Prop where
  underWay_iff : ∀ id, walk.progressOf id = .underWay ↔ ∃ frame ∈ frames, frame.node.id = id
  distinct : (frames.map fun frame => frame.node.id).Nodup
  found : ∀ frame ∈ frames, graph.node? frame.node.id = some frame.node
  order_iff : ∀ id, id ∈ walk.order ↔ walk.progressOf id ≠ .unseen
  nodup : walk.order.Nodup
  led : ∀ before id after, walk.order = before ++ id :: after →
    id ∈ roots ∨ ∃ source ∈ before, graph.DependsOn source id
  /-- An edge leads from a node met to a node met that it depends on. -/
  met : ∀ edge ∈ walk.edges, edge.source ∈ walk.order ∧ edge.target ∈ walk.order ∧
    graph.DependsOn edge.source edge.target
  followed : ∀ frame ∈ frames, ∀ dependency ∈ frame.followed,
    ⟨frame.node.id, dependency.via, dependency.target⟩ ∈ walk.edges
  closed : ∀ id node, walk.progressOf id = .complete → graph.node? id = some node →
    ∀ dependency ∈ node.dependencies, ⟨id, dependency.via, dependency.target⟩ ∈ walk.edges
  canonical : walk.registry.Canonical graph
  registered : ∀ id ∈ walk.order, (walk.registry.internal? id).isSome

namespace Traverses

variable {graph : Graph} {roots : List Id} {frames : List Frame} {walk before after : Walk}

theorem start (graph : Graph) (roots : List Id) : Traverses graph roots [] {} where
  underWay_iff := by
    intro id
    simp [progressOf, Table.get?]
  distinct := List.nodup_nil
  found := by simp
  order_iff := by
    intro id
    simp [progressOf, Table.get?]
  nodup := List.nodup_nil
  led := by simp
  met := by simp
  followed := by simp
  closed := by
    intro id node complete
    simp [progressOf, Table.get?] at complete
  canonical := Registry.canonical_empty graph
  registered := by simp

theorem blind (holds : Traverses graph roots frames walk) (references : Table Id Reference)
    (awaited : List Id) (journal : List Journal.Event) :
    Traverses graph roots frames
      { walk with references, awaited, registry := { walk.registry with journal } } :=
  ⟨holds.underWay_iff, holds.distinct, holds.found, holds.order_iff, holds.nodup, holds.led,
    holds.met, holds.followed, holds.closed, holds.canonical, holds.registered⟩

theorem mem_order_of_frame (holds : Traverses graph roots frames walk) {frame : Frame}
    (member : frame ∈ frames) : frame.node.id ∈ walk.order := by
  rw [holds.order_iff]
  have underWay := (holds.underWay_iff frame.node.id).mpr ⟨frame, member, rfl⟩
  simp [underWay]

/-- A node the walk may turn to is a root or has a dependent among the nodes met. -/
theorem source_of_leads_to (holds : Traverses graph roots frames walk) {id : Id}
    (leads : LeadsTo roots frames id) :
    id ∈ roots ∨ ∃ source ∈ walk.order, graph.DependsOn source id := by
  cases frames with
  | nil => exact .inl leads
  | cons frame frames =>
      obtain ⟨dependency, member, same⟩ := leads
      refine .inr ⟨frame.node.id, holds.mem_order_of_frame (by simp), ?_⟩
      exact Graph.depends_on_iff.mpr
        ⟨frame.node, dependency, holds.found frame (by simp), member, same⟩

theorem enter (holds : Traverses graph roots frames before) {node : Node}
    (leads : LeadsTo roots frames node.id) (found : graph.node? node.id = some node)
    (unseen : before.progressOf node.id = .unseen)
    (returns : (enter graph node.id).Returns before () after) :
    Traverses graph roots (⟨node, []⟩ :: frames) after := by
  have marked := enter_marks returns
  obtain ⟨internal, registry, registers, rfl⟩ := enter_returns returns
  obtain ⟨canonical, held⟩ := Registry.register_returns holds.canonical registers
  have fresh : node.id ∉ before.order := fun member =>
    (holds.order_iff node.id).mp member unseen
  have apart : ∀ frame ∈ frames, frame.node.id ≠ node.id := fun frame member same =>
    fresh (same ▸ holds.mem_order_of_frame member)
  constructor
  case underWay_iff =>
    intro id
    rw [marked id]
    by_cases same : id = node.id
    · simp [same]
    · simp [same, Ne.symm same, holds.underWay_iff]
  case distinct =>
    rw [List.map_cons, List.nodup_cons]
    refine ⟨fun member => ?_, holds.distinct⟩
    obtain ⟨frame, listed, same⟩ := List.mem_map.mp member
    exact apart frame listed same
  case found =>
    intro frame member
    rcases List.mem_cons.mp member with rfl | inside
    · exact found
    · exact holds.found frame inside
  case order_iff =>
    intro id
    rw [marked id]
    by_cases same : id = node.id
    · simp [same]
    · simp [same, holds.order_iff]
  case nodup =>
    rw [List.nodup_append]
    refine ⟨holds.nodup, by simp, ?_⟩
    intro id member other single same
    cases List.mem_singleton.mp single
    exact fresh (same ▸ member)
  case led =>
    intro front id back split
    -- the new node stands last, and all other places are as they were
    rcases List.eq_nil_or_concat back with rfl | ⟨rest, last, rfl⟩
    · obtain ⟨rfl, same⟩ := List.append_inj' split rfl
      cases same
      exact holds.source_of_leads_to leads
    · rw [List.concat_eq_append, ← List.cons_append, ← List.append_assoc] at split
      exact holds.led front id rest (List.append_inj' split rfl).1
  case met =>
    intro edge member
    obtain ⟨source, target, depends⟩ := holds.met edge member
    exact ⟨List.mem_append_left _ source, List.mem_append_left _ target, depends⟩
  case followed =>
    intro frame member
    rcases List.mem_cons.mp member with rfl | inside
    · simp
    · exact holds.followed frame inside
  case closed =>
    intro id other complete
    rw [marked id] at complete
    split at complete
    · cases complete
    · exact holds.closed id other complete
  case canonical => exact canonical
  case registered =>
    intro id member
    rcases List.mem_append.mp member with earlier | here
    · exact (Registry.register_known node.id id).returns registers (holds.registered id earlier)
    · cases List.mem_singleton.mp here
      exact Option.isSome_iff_exists.mpr ⟨internal, held⟩

theorem mention (holds : Traverses graph roots frames before) {target : Node}
    (returns : (mention target).Returns before () after) :
    Traverses graph roots frames after := by
  refine (mention_keeps target fun walk references kept => ?_).returns returns holds
  exact kept.blind references walk.awaited walk.registry.journal

theorem close {source target : Node} {followed : List Dependency} {dependency : Dependency}
    {middle : Walk} (holds : Traverses graph roots (⟨source, followed⟩ :: frames) before)
    (depends : dependency ∈ source.dependencies) (aimed : dependency.target = target.id)
    (seen : before.progressOf target.id ≠ .unseen)
    (refreshed : (refresh graph source.id dependency.via target).Returns before () middle)
    (recorded : (recordEdge ⟨source.id, dependency.via, target.id⟩).Returns middle () after) :
    Traverses graph roots (⟨source, followed ++ [dependency]⟩ :: frames) after := by
  have keeps : (refresh graph source.id dependency.via target).Keeps fun walk =>
      Traverses graph roots (⟨source, followed⟩ :: frames) walk ∧
        walk.progressOf target.id ≠ .unseen := by
    refine refresh_keeps source.id dependency.via target ?_
    rintro walk references awaited journal ⟨holds, seen⟩
    exact ⟨holds.blind references awaited journal, seen⟩
  obtain ⟨holds, seen⟩ := keeps.returns refreshed ⟨holds, seen⟩
  cases Step.Returns.modify_iff.mp recorded
  constructor
  case underWay_iff =>
    intro id
    apply (holds.underWay_iff id).trans
    simp
  case distinct => exact holds.distinct
  case found =>
    intro frame member
    rcases List.mem_cons.mp member with rfl | inside
    · exact holds.found ⟨source, followed⟩ List.mem_cons_self
    · exact holds.found frame (List.mem_cons_of_mem _ inside)
  case order_iff => exact holds.order_iff
  case nodup => exact holds.nodup
  case led => exact holds.led
  case met =>
    intro edge member
    rcases List.mem_append.mp member with earlier | here
    · exact holds.met edge earlier
    · cases List.mem_singleton.mp here
      have first : (⟨source, followed⟩ : Frame) ∈ ⟨source, followed⟩ :: frames :=
        List.mem_cons_self
      refine ⟨holds.mem_order_of_frame first, (holds.order_iff target.id).mpr seen, ?_⟩
      exact Graph.depends_on_iff.mpr ⟨source, dependency, holds.found _ first, depends, aimed⟩
  case followed =>
    intro frame member other listed
    rcases List.mem_cons.mp member with rfl | inside
    · rcases List.mem_append.mp listed with earlier | here
      · exact List.mem_append_left _
          (holds.followed ⟨source, followed⟩ List.mem_cons_self other earlier)
      · cases List.mem_singleton.mp here
        exact List.mem_append_right _ (by simp [aimed])
    · exact List.mem_append_left _
        (holds.followed frame (List.mem_cons_of_mem _ inside) other listed)
  case closed =>
    intro id node complete found other listed
    exact List.mem_append_left _ (holds.closed id node complete found other listed)
  case canonical => exact holds.canonical
  case registered => exact holds.registered

theorem leave {node : Node}
    (holds : Traverses graph roots (⟨node, node.dependencies⟩ :: frames) before)
    (returns : (leave graph node).Returns before () after) :
    Traverses graph roots frames after := by
  unfold Walk.leave setProgress at returns
  rw [Step.Returns.bind_iff] at returns
  obtain ⟨_, middle, marks, settles⟩ := returns
  have marked : ∀ other, middle.progressOf other =
      if other = node.id then .complete else before.progressOf other := by
    intro other
    cases Step.Returns.modify_iff.mp marks
    exact progress_of_set before node.id other .complete
  have met : node.id ∈ before.order := holds.mem_order_of_frame List.mem_cons_self
  have distinct := List.nodup_cons.mp holds.distinct
  refine Step.Keeps.returns (settle_keeps node fun walk references awaited journal kept =>
    kept.blind references awaited journal) settles ?_
  cases Step.Returns.modify_iff.mp marks
  constructor
  case underWay_iff =>
    intro id
    rw [marked id]
    by_cases same : id = node.id
    · subst same
      simp only [if_true, reduceCtorEq, false_iff]
      rintro ⟨frame, member, same⟩
      exact distinct.1 (List.mem_map.mpr ⟨frame, member, same⟩)
    · simp [same, Ne.symm same, holds.underWay_iff]
  case distinct => exact distinct.2
  case found =>
    exact fun frame member => holds.found frame (List.mem_cons_of_mem _ member)
  case order_iff =>
    intro id
    rw [marked id]
    by_cases same : id = node.id
    · simp [same, met]
    · simp [same, holds.order_iff]
  case nodup => exact holds.nodup
  case led => exact holds.led
  case met => exact holds.met
  case followed =>
    exact fun frame member => holds.followed frame (List.mem_cons_of_mem _ member)
  case closed =>
    intro id other complete found
    rw [marked id] at complete
    split at complete
    · -- the node that is left has had all its dependencies followed
      rename_i same
      subst same
      have here := holds.found _ List.mem_cons_self
      rw [here] at found
      cases found
      exact holds.followed _ List.mem_cons_self
    · exact holds.closed id other complete found
  case canonical => exact holds.canonical
  case registered => exact holds.registered

/-- With nothing under way, the nodes met are the complete ones. -/
theorem mem_order_iff_complete (holds : Traverses graph roots [] walk) (id : Id) :
    id ∈ walk.order ↔ walk.progressOf id = .complete := by
  have notUnderWay : walk.progressOf id ≠ .underWay := by
    intro underWay
    obtain ⟨frame, member, _⟩ := (holds.underWay_iff id).mp underWay
    cases member
  rw [holds.order_iff]
  cases progress : walk.progressOf id with
  | unseen => simp
  | underWay => exact absurd progress notUnderWay
  | complete => simp

theorem mem_order_of_depends_on (holds : Traverses graph roots [] walk) {source target : Id}
    (met : source ∈ walk.order) (depends : graph.DependsOn source target) :
    target ∈ walk.order := by
  obtain ⟨node, dependency, found, member, rfl⟩ := Graph.depends_on_iff.mp depends
  have complete := (holds.mem_order_iff_complete source).mp met
  exact (holds.met _ (holds.closed source node complete found dependency member)).2.1

/-- With nothing under way, the edges lead to what the nodes met depend on. -/
theorem edge_iff_depends_on (holds : Traverses graph roots [] walk) (target : Id) :
    (∃ edge ∈ walk.edges, edge.target = target) ↔
      ∃ source ∈ walk.order, graph.DependsOn source target := by
  constructor
  · rintro ⟨edge, member, rfl⟩
    obtain ⟨source, _, depends⟩ := holds.met edge member
    exact ⟨edge.source, source, depends⟩
  · rintro ⟨source, met, depends⟩
    obtain ⟨node, dependency, found, member, rfl⟩ := Graph.depends_on_iff.mp depends
    have complete := (holds.mem_order_iff_complete source).mp met
    exact ⟨_, holds.closed source node complete found dependency member, rfl⟩

/-- A node at any place of the order is reached from a root, because the node that led to it stands
before it. -/
theorem reached_at (holds : Traverses graph roots frames walk) {front back : List Id} {id : Id}
    (place : walk.order = front ++ id :: back) :
    ∃ root ∈ roots, Relation.ReflTransGen graph.DependsOn root id := by
  induction size : front.length using Nat.strongRecOn generalizing front id back with
  | ind length induction =>
      rcases holds.led front id back place with isRoot | ⟨source, member, depends⟩
      · exact ⟨id, isRoot, .refl⟩
      · obtain ⟨first, second, split⟩ := List.append_of_mem member
        have shorter : first.length < length := by
          simp [← size, split]
        have earlier : walk.order = first ++ source :: (second ++ id :: back) := by
          simp [place, split]
        obtain ⟨root, isRoot, reaches⟩ := induction first.length shorter earlier rfl
        exact ⟨root, isRoot, reaches.tail depends⟩

theorem mem_order_iff_reached (holds : Traverses graph roots [] walk)
    (visited : ∀ root ∈ roots, walk.progressOf root ≠ .unseen) (id : Id) :
    id ∈ walk.order ↔ ∃ root ∈ roots, Relation.ReflTransGen graph.DependsOn root id := by
  constructor
  · intro member
    obtain ⟨front, back, place⟩ := List.append_of_mem member
    exact holds.reached_at place
  · rintro ⟨root, isRoot, reaches⟩
    induction reaches with
    | refl => exact (holds.order_iff root).mpr (visited root isRoot)
    | tail _ depends induction => exact holds.mem_order_of_depends_on induction depends

end Traverses

theorem traverses_carries (graph : Graph) (roots : List Id) :
    Carries graph roots fun frames _ walk => Traverses graph roots frames walk where
  enter holds leads found unseen returns := holds.enter leads found unseen returns
  mention holds _ returns := holds.mention returns
  close holds place aimed _ _ seen refreshed recorded :=
    holds.close (by simp [← place]) aimed seen refreshed recorded
  leave holds returns := holds.leave returns
  note holds := holds.blind _ _ _

/-- Walks do nothing to the registry but register nodes and write the journal. -/
theorem registering_carries (graph : Graph) (roots : List Id) {invariant : Registry → Prop}
    (registers : ∀ id, (Registry.register graph id).Keeps invariant)
    (blind : ∀ registry journal, invariant registry → invariant { registry with journal }) :
    Carries graph roots fun _ _ walk => invariant walk.registry := by
  have quiet : ∀ (walk : Walk) (references : Table Id Reference) (awaited : List Id)
      (journal : List Journal.Event), invariant walk.registry →
      invariant { walk.registry with journal } := fun walk _ _ => blind walk.registry
  refine ⟨?_, ?_, ?_, ?_, ?_⟩
  · intro frames opened node before after holds _ _ _ returns
    obtain ⟨_, registry, registered, rfl⟩ := enter_returns returns
    exact (registers node.id).returns registered holds
  · intro frames opened target before after holds _ returns
    have keeps : (mention target).Keeps fun walk => invariant walk.registry :=
      mention_keeps target fun _ _ kept => kept
    exact keeps.returns returns holds
  · intro source _ _ _ dependency _ target before middle after holds _ _ _ _ _ refreshed recorded
    have keeps : (refresh graph source.id dependency.via target).Keeps fun walk =>
        invariant walk.registry := refresh_keeps _ _ _ quiet
    have kept := keeps.returns refreshed holds
    cases Step.Returns.modify_iff.mp recorded
    exact kept
  · intro node frames opened before after holds returns
    have keeps : (leave graph node).Keeps fun walk => invariant walk.registry :=
      .of_bind (.of_modify fun _ kept => kept) fun _ => settle_keeps node quiet
    exact keeps.returns returns holds
  · intro frames opened walk journal holds
    exact quiet walk {} [] journal holds

theorem registry_carries (graph : Graph) (roots : List Id) {invariant : Registry → Prop}
    (blind : ∀ registry internal segments journal, invariant registry →
      invariant { registry with internal, segments, journal }) :
    Carries graph roots fun _ _ walk => invariant walk.registry :=
  registering_carries graph roots (fun _ => Registry.register_from_keeps invariant blind _ _)
    fun registry => blind registry registry.internal registry.segments

/-- A walk comes to its end however the references go round: the depth of a visit is never used up,
and no search along scopes is. Walks that all succeed meet exactly the nodes the roots lead to,
each once and after a node that depends on it, and leave them complete. -/
theorem runEach_meets_reachable {graph : Graph} (ends : graph.ScopesEnd) :
    (∀ beyond bound id, graph.size < bound →
      visitWithin beyond graph bound id = visit graph id) ∧
    (∀ calls walk, ∀ result ∈ (runEach graph calls walk).1, ∀ start,
      result ≠ .error (Defect.endlessScope start)) ∧
    ∀ calls results walk, runEach graph calls {} = (results, walk) →
      (∀ result ∈ results, result = .ok ()) →
      walk.order.Nodup ∧
      (∀ id, id ∈ walk.order ↔ walk.progressOf id = .complete) ∧
      (∀ id, id ∈ walk.order ↔
        ∃ root ∈ calls.flatten, Relation.ReflTransGen graph.DependsOn root id) ∧
      (∀ id, id ∉ walk.order → walk.progressOf id = .unseen) ∧
      (∀ id, walk.progressOf id ≠ .underWay) ∧
      ∀ before id after, walk.order = before ++ id :: after →
        id ∈ calls.flatten ∨ ∃ source ∈ before, graph.DependsOn source id := by
  refine ⟨fun beyond bound id enough => visit_within_eq_visit beyond enough id, ?_, ?_⟩
  · rintro calls walk result member start rfl
    obtain ⟨given, before, failed⟩ := run_each_mem member
    rcases run_error ends (Prod.ext failed rfl) with stops | ⟨_, _, pending⟩
    · exact stops.ne_endless start rfl
    · cases pending
  · intro calls results walk ran succeeded
    obtain ⟨holds, _, visited⟩ := (traverses_carries graph calls.flatten).runEach
      (fun given member root listed => List.mem_flatten.mpr ⟨given, member, listed⟩)
      (Traverses.start graph calls.flatten) ran succeeded
    have seen : ∀ root ∈ calls.flatten, walk.progressOf root ≠ .unseen := by
      intro root member
      obtain ⟨given, listed, inside⟩ := List.mem_flatten.mp member
      exact visited given listed root inside
    refine ⟨holds.nodup, holds.mem_order_iff_complete, holds.mem_order_iff_reached seen, ?_, ?_,
      holds.led⟩
    · intro id missing
      by_contra progressed
      exact missing ((holds.order_iff id).mpr progressed)
    · intro id underWay
      obtain ⟨frame, member, _⟩ := (holds.underWay_iff id).mp underWay
      cases member

/-- A struct that refers to itself and, through a list, to another one that refers back. -/
def circle : Graph where
  nodes := [
    { id := 1, kind := .file, name := "tree.capnp", nested := [2, 3] },
    { id := 2, kind := .struct, name := "Branch", scope := 1, fields := [
      { name := "next", type := some { kind := .struct, target := 2 } },
      { name := "leaves",
        type := some { kind := .list, element := some { kind := .struct, target := 3 } } }] },
    { id := 3, kind := .struct, name := "Leaf", scope := 1, fields := [
      { name := "parent", type := some { kind := .struct, target := 2 } }] }]
  requested := [1]

theorem runEach_meets_reachable_circle :
    circle.ScopesEnd ∧ (runEach circle [[2], [1]] {}).1 = [.ok (), .ok ()] ∧
    (runEach circle [[2], [1]] {}).2.order = [2, 3, 1] ∧
    (runEach circle [[2], [1]] {}).2.progressOf 3 = .complete ∧
    ∃ root ∈ [2, 1], Relation.ReflTransGen circle.DependsOn root 3 := by
  have ends : circle.ScopesEnd := by decide +kernel
  have succeeded : (runEach circle [[2], [1]] {}).1 = [.ok (), .ok ()] := by decide +kernel
  have order : (runEach circle [[2], [1]] {}).2.order = [2, 3, 1] := by decide +kernel
  obtain ⟨_, complete, reached, _⟩ :=
    (runEach_meets_reachable ends).2.2 [[2], [1]] _ _ (Prod.eta _).symm (by simp [succeeded])
  have member : (3 : Id) ∈ (runEach circle [[2], [1]] {}).2.order := by simp [order]
  exact ⟨ends, succeeded, order, (complete 3).mp member, (reached 3).mp member⟩

end SchemaStubs.Walk
