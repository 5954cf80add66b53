import SchemaStubs.Proofs.Schema.Accepted
import SchemaStubs.Walk.Visit

/-!
How deep a walk goes. A node is marked before its dependencies are followed and no mark is ever
taken back, so each step down leaves fewer unseen nodes. The bound on the depth is therefore never
met: a visit does the same whatever would happen there, however the references go round.
-/

namespace SchemaStubs.Walk

/-- A visit that does `beyond` where the bound is used up. -/
def visitWithin (beyond : Id → Step Walk Unit) (graph : Graph) : Nat → Id → Step Walk Unit
  | 0, id => beyond id
  | bound + 1, id => visitWith graph (visitWithin beyond graph bound) id

def unseenIn (graph : Graph) (walk : Walk) : Nat :=
  graph.nodes.countP fun node => decide (walk.progressOf node.id = .unseen)

def Advances (before after : Walk) : Prop :=
  ∀ id, after.progressOf id = .unseen → before.progressOf id = .unseen

theorem Advances.refl (walk : Walk) : Advances walk walk :=
  fun _ unseen => unseen

theorem Advances.trans {first second third : Walk} (one : Advances first second)
    (two : Advances second third) : Advances first third :=
  fun id unseen => one id (two id unseen)

theorem Advances.unseen_in_le {graph : Graph} {before after : Walk}
    (advances : Advances before after) : unseenIn graph after ≤ unseenIn graph before := by
  refine List.countP_mono_left fun node _ unseen => ?_
  exact decide_eq_true (advances node.id (of_decide_eq_true unseen))

theorem Advances.unseen_in_lt {graph : Graph} {before after : Walk} {id : Id} {node : Node}
    (advances : Advances before after) (found : graph.node? id = some node)
    (unseen : before.progressOf id = .unseen) (seen : after.progressOf id ≠ .unseen) :
    unseenIn graph after < unseenIn graph before := by
  have same := Graph.id_of_node? found
  obtain ⟨front, back, split⟩ := List.append_of_mem (Graph.mem_of_node? found)
  have here : ∀ nodes : List Node,
      nodes.countP (fun node => decide (after.progressOf node.id = .unseen)) ≤
        nodes.countP fun node => decide (before.progressOf node.id = .unseen) := by
    intro nodes
    refine List.countP_mono_left fun other _ still => ?_
    exact decide_eq_true (advances other.id (of_decide_eq_true still))
  have inFront := here front
  have inBack := here back
  simp only [unseenIn, split, List.countP_append, List.countP_cons, same, unseen, seen,
    decide_true, decide_false, if_true, Bool.false_eq_true, if_false]
  omega

section Frame

variable {graph : Graph} {invariant : Walk → Prop}

theorem note_keeps (event : Journal.Event)
    (blind : ∀ walk journal, invariant walk →
      invariant { walk with registry := { walk.registry with journal } }) :
    (note event).Keeps invariant :=
  fun walk start => blind walk _ start

theorem set_reference_keeps (reference : Reference)
    (blind : ∀ walk references, invariant walk → invariant { walk with references }) :
    (setReference reference).Keeps invariant :=
  .of_modify fun walk => blind walk _

theorem locate_keeps (node : Node) : (locate graph node).Keeps invariant := by
  unfold locate
  refine .of_bind .of_get fun walk => ?_
  exact .of_bind (.of_of_except _) fun file => .of_pure _

theorem mention_keeps (target : Node)
    (blind : ∀ walk references, invariant walk → invariant { walk with references }) :
    (mention target).Keeps invariant := by
  unfold mention
  refine .of_bind .of_get fun walk => ?_
  split
  · exact set_reference_keeps _ blind
  · exact .of_pure _

theorem record_edge_keeps (edge : Edge)
    (blind : ∀ walk edges, invariant walk → invariant { walk with edges }) :
    (recordEdge edge).Keeps invariant :=
  .of_modify fun walk => blind walk _

/-- Bringing a reference up to date touches references, those awaited, and the journal. -/
theorem refresh_keeps (source : Id) (via : Via) (target : Node)
    (blind : ∀ walk references awaited journal, invariant walk → invariant
      { walk with references, awaited, registry := { walk.registry with journal } }) :
    (refresh graph source via target).Keeps invariant := by
  have set : ∀ reference, (setReference reference).Keeps invariant := fun reference =>
    set_reference_keeps reference fun walk references =>
      blind walk references walk.awaited walk.registry.journal
  unfold refresh
  refine .of_bind .of_get fun walk => ?_
  dsimp only
  split
  · split
    · exact .of_bind (locate_keeps target) fun located => set located
    · exact .of_pure _
  · unfold postpone
    refine .of_bind (note_keeps _ fun walk => blind walk walk.references walk.awaited) fun _ => ?_
    split
    · exact .of_pure _
    · refine .of_bind (set _) fun _ => .of_modify fun walk => ?_
      exact blind walk walk.references _ walk.registry.journal
  · exact .of_pure _

theorem settle_keeps (node : Node)
    (blind : ∀ walk references awaited journal, invariant walk → invariant
      { walk with references, awaited, registry := { walk.registry with journal } }) :
    (settle graph node).Keeps invariant := by
  intro walk start
  rw [settle, Step.outcome_bind]
  simp only [Step.outcome_get]
  split
  · rw [Step.outcome_bind, Step.outcome_set]
    have taken := blind walk walk.references (walk.awaited.filter fun id => id != node.id)
      walk.registry.journal start
    have rest : (do
        let reference ← locate graph node
        setReference reference
        note (.referencesPatched node.id 1) : Step Walk Unit).Keeps invariant := by
      refine .of_bind (locate_keeps node) fun reference => ?_
      refine .of_bind (set_reference_keeps reference fun walk references =>
        blind walk references walk.awaited walk.registry.journal) fun _ => ?_
      exact note_keeps _ fun walk => blind walk walk.references walk.awaited
    exact rest _ taken
  · exact start

end Frame

theorem progress_of_set (walk : Walk) (id other : Id) (progress : Progress) :
    progressOf { walk with progress := walk.progress.set id progress } other =
      if other = id then progress else walk.progressOf other := by
  unfold progressOf
  rw [Table.get?_set]
  split <;> rfl

/-- Whatever registering comes to, entering a node marks it and appends it to the order. -/
theorem enter_outcome (graph : Graph) (id : Id) (walk : Walk) :
    (enter graph id).outcome walk =
      (((Registry.register graph id).outcome walk.registry).1.map fun _ => (),
        { walk with
          progress := walk.progress.set id .underWay
          order := walk.order ++ [id]
          registry := ((Registry.register graph id).outcome walk.registry).2 }) := by
  unfold enter inRegistry setProgress
  simp only [Step.outcome_bind, Step.outcome_modify, Step.outcome_on_part]
  rcases (Registry.register graph id).outcome walk.registry with ⟨result, registry⟩
  cases result <;> rfl

theorem enter_returns {graph : Graph} {id : Id} {before after : Walk}
    (returns : (enter graph id).Returns before () after) :
    ∃ internal registry,
      (Registry.register graph id).Returns before.registry internal registry ∧
      after = { before with
        progress := before.progress.set id .underWay
        order := before.order ++ [id]
        registry } := by
  unfold Step.Returns at returns
  rw [enter_outcome] at returns
  rcases registers : (Registry.register graph id).outcome before.registry with ⟨result, registry⟩
  rw [registers] at returns
  cases result with
  | error fault => cases returns
  | ok internal =>
      cases returns
      exact ⟨internal, registry, registers, rfl⟩

theorem progress_of_entered (graph : Graph) (id other : Id) (walk : Walk) :
    ((enter graph id).outcome walk).2.progressOf other =
      if other = id then .underWay else walk.progressOf other := by
  rw [enter_outcome]
  exact progress_of_set walk id other .underWay

theorem enter_marks {graph : Graph} {id : Id} {before after : Walk}
    (returns : (enter graph id).Returns before () after) (other : Id) :
    after.progressOf other = if other = id then .underWay else before.progressOf other := by
  have marked := progress_of_entered graph id other before
  rwa [returns] at marked

section Progress

variable {graph : Graph} {start : Walk}

theorem enter_advances (id : Id) : (enter graph id).Keeps (Advances start) := by
  intro walk advances other unseen
  rw [progress_of_entered] at unseen
  split at unseen
  · cases unseen
  · exact advances other unseen

theorem leave_advances (node : Node) : (leave graph node).Keeps (Advances start) := by
  unfold leave
  refine .of_bind (.of_modify fun walk advances other unseen => ?_) fun _ => ?_
  · rw [progress_of_set] at unseen
    split at unseen
    · cases unseen
    · exact advances other unseen
  · exact settle_keeps node fun _ _ _ _ advances => advances

theorem follow_advances {visit : Id → Step Walk Unit}
    (visits : ∀ id, (visit id).Keeps (Advances start)) (source : Id) (dependency : Dependency) :
    (follow graph visit source dependency).Keeps (Advances start) := by
  unfold follow
  refine .of_bind (.of_of_except _) fun target => ?_
  refine .of_bind (mention_keeps target fun _ _ advances => advances) fun _ => ?_
  refine .of_bind (visits target.id) fun _ => ?_
  refine .of_bind (refresh_keeps _ _ _ fun _ _ _ _ advances => advances) fun _ => ?_
  exact record_edge_keeps _ fun _ _ advances => advances

theorem visit_with_advances {visit : Id → Step Walk Unit}
    (visits : ∀ id, (visit id).Keeps (Advances start)) (id : Id) :
    (visitWith graph visit id).Keeps (Advances start) := by
  unfold visitWith
  refine .of_bind .of_get fun walk => ?_
  split
  · exact .of_pure _
  · split
    · exact .of_fail _
    · rename_i node _
      refine .of_bind (enter_advances id) fun _ => ?_
      refine .of_bind (.of_forM fun dependency _ => ?_) fun _ => leave_advances node
      exact follow_advances visits id dependency

theorem visit_from_advances (bound : Nat) (id : Id) :
    (visitFrom graph bound id).Keeps (Advances start) := by
  induction bound generalizing id with
  | zero => exact .of_pure _
  | succ bound induction => exact visit_with_advances induction id

end Progress

theorem unseen_in_entered {graph : Graph} {id : Id} {node : Node} {before after : Walk}
    {result : Except Fault Unit} (found : graph.node? id = some node)
    (unseen : before.progressOf id = .unseen)
    (entered : (enter graph id).outcome before = (result, after)) :
    unseenIn graph after < unseenIn graph before := by
  have advances : Advances before ((enter graph id).outcome before).2 :=
    enter_advances id before (Advances.refl before)
  have marked := progress_of_entered graph id id before
  rw [entered] at advances marked
  apply advances.unseen_in_lt found unseen
  simp [marked]

/-- A depth that is greater than the number of unseen nodes is never used up. -/
theorem visit_within_outcome {beyond : Id → Step Walk Unit} {graph : Graph} {bound depth : Nat}
    {id : Id} {walk : Walk} (enough : unseenIn graph walk < bound)
    (deep : unseenIn graph walk < depth) :
    (visitWithin beyond graph bound id).outcome walk = (visitFrom graph depth id).outcome walk := by
  induction bound generalizing depth id walk with
  | zero => omega
  | succ bound induction =>
      cases depth with
      | zero => omega
      | succ depth =>
          simp only [visitWithin, visitFrom, visitWith, Step.outcome_bind, Step.outcome_get]
          split
          · rfl
          · rename_i notSeen
            have unseen : walk.progressOf id = .unseen := by simpa using notSeen
            split
            · rfl
            · rename_i node found
              refine Step.outcome_bind_congr rfl fun _ entered reached => ?_
              have fewer := unseen_in_entered found unseen reached
              refine Step.outcome_bind_congr ?_ fun _ _ _ => rfl
              -- the dependencies are followed from states with no more unseen nodes than after
              -- entering, and that is what both loops keep
              refine Step.Keeps.forM_congr (Advances entered) ?_ ?_ (Advances.refl _)
              · intro dependency _ state advances
                refine Step.outcome_bind_congr rfl fun target _ checked => ?_
                refine Step.outcome_bind_congr rfl fun _ middle mentioned => ?_
                refine Step.outcome_bind_congr ?_ fun _ _ _ => rfl
                have still : Advances entered middle := by
                  refine (mention_keeps target fun _ _ kept => kept).returns mentioned ?_
                  rw [Step.outcome_of_except] at checked
                  exact (Prod.mk.inj checked).2 ▸ advances
                have least : unseenIn graph middle ≤ unseenIn graph entered := still.unseen_in_le
                exact induction (by omega) (by omega)
              · intro dependency _
                exact follow_advances (visit_from_advances depth) id dependency

theorem unseen_in_le_size (graph : Graph) (walk : Walk) : unseenIn graph walk ≤ graph.size :=
  List.countP_le_length

/-- A visit with any bound above the size of the graph is the visit, whatever it would do at the
end of the bound. -/
theorem visit_within_eq_visit (beyond : Id → Step Walk Unit) {graph : Graph} {bound : Nat}
    (enough : graph.size < bound) (id : Id) : visitWithin beyond graph bound id = visit graph id := by
  funext walk
  have small := unseen_in_le_size graph walk
  change (visitWithin beyond graph bound id).outcome walk =
    (visitFrom graph (graph.size + 1) id).outcome walk
  exact visit_within_outcome (by omega) (by omega)

end SchemaStubs.Walk
