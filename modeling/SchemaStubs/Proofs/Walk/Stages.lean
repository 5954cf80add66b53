import SchemaStubs.Proofs.Walk.Depth
import SchemaStubs.Proofs.Walk.Mention

/-!
The stages of a walk. Between two stages a walk stands on a stack of nodes under way, each with the
dependencies of it that were followed, and holds a stack of targets it is busy with. A property of
the state and the two stacks that every single stage carries on is carried through whole visits,
and so through every successful sequence of walks.
-/

namespace SchemaStubs.Walk

/-- A node under way and the dependencies of it that were followed so far. -/
structure Frame where
  node : Node
  followed : List Dependency

/-- The walk may turn to a node: it is a root, or the innermost node under way depends on it. -/
def LeadsTo (roots : List Id) : List Frame → Id → Prop
  | [], id => id ∈ roots
  | frame :: _, id => ∃ dependency ∈ frame.node.dependencies, dependency.target = id

/-- Every stage of a walk carries a property of the nodes under way, the targets at hand and the
state. -/
structure Carries (graph : Graph) (roots : List Id) (holds : List Frame → List Id → Walk → Prop) :
    Prop where
  enter : ∀ {frames opened node before after}, holds frames opened before →
    LeadsTo roots frames node.id → graph.node? node.id = some node →
    before.progressOf node.id = .unseen → (enter graph node.id).Returns before () after →
    holds (⟨node, []⟩ :: frames) opened after
  mention : ∀ {frames opened target before after}, holds frames opened before →
    graph.node? target.id = some target → (mention target).Returns before () after →
    holds frames (target.id :: opened) after
  close : ∀ {source followed frames opened dependency rest target before middle after},
    holds (⟨source, followed⟩ :: frames) (target.id :: opened) before →
    followed ++ dependency :: rest = source.dependencies → dependency.target = target.id →
    graph.node? target.id = some target →
    (∀ wanted, dependency.wanted = some wanted → target.kind = wanted) →
    before.progressOf target.id ≠ .unseen →
    (refresh graph source.id dependency.via target).Returns before () middle →
    (recordEdge ⟨source.id, dependency.via, target.id⟩).Returns middle () after →
    holds (⟨source, followed ++ [dependency]⟩ :: frames) opened after
  leave : ∀ {node frames opened before after},
    holds (⟨node, node.dependencies⟩ :: frames) opened before →
    (leave graph node).Returns before () after → holds frames opened after
  note : ∀ {frames opened walk journal}, holds frames opened walk →
    holds frames opened { walk with registry := { walk.registry with journal } }

/-- Walks one after another on one state, whether they succeed or not: their results, and the state
after the last one. -/
def runEach (graph : Graph) : List (List Id) → Walk → List (Except Fault Unit) × Walk
  | [], walk => ([], walk)
  | given :: calls, walk =>
      let (result, reached) := (run graph given).outcome walk
      let (results, last) := runEach graph calls reached
      (result :: results, last)

/-- Each result is that of a walk from one of the states passed through. -/
theorem run_each_mem {graph : Graph} {calls : List (List Id)} {walk : Walk}
    {result : Except Fault Unit} (member : result ∈ (runEach graph calls walk).1) :
    ∃ given before, ((run graph given).outcome before).1 = result := by
  induction calls generalizing walk with
  | nil => cases member
  | cons given calls induction =>
      rcases List.mem_cons.mp member with here | later
      · exact ⟨given, walk, here.symm⟩
      · exact induction later

theorem target_of_ok {graph : Graph} {source : Id} {dependency : Dependency} {target : Node}
    (checked : targetOf graph source dependency = .ok target) :
    graph.node? dependency.target = some target ∧
      ∀ wanted, dependency.wanted = some wanted → target.kind = wanted := by
  unfold targetOf at checked
  split at checked
  · cases checked
  · rename_i other found
    split at checked
    · rename_i free
      cases checked
      exact ⟨found, fun wanted asked => by rw [free] at asked; cases asked⟩
    · rename_i wanted asked
      split at checked
      · rename_i fits
        cases checked
        refine ⟨found, fun other same => ?_⟩
        rw [asked] at same
        cases same
        exact fits
      · cases checked

namespace Carries

variable {graph : Graph} {roots : List Id} {holds : List Frame → List Id → Walk → Prop}

theorem follow (carries : Carries graph roots holds) {visit : Id → Step Walk Unit}
    {source : Node} {followed rest : List Dependency} {dependency : Dependency}
    {frames : List Frame} {opened : List Id} {before after : Walk}
    (visits : ∀ {opened id middle after}, Advances before middle →
      holds (⟨source, followed⟩ :: frames) opened middle →
      (∃ dependency ∈ source.dependencies, dependency.target = id) →
      (visit id).Returns middle () after →
      holds (⟨source, followed⟩ :: frames) opened after ∧ after.progressOf id ≠ .unseen)
    (start : holds (⟨source, followed⟩ :: frames) opened before)
    (place : followed ++ dependency :: rest = source.dependencies)
    (returns : (Walk.follow graph visit source.id dependency).Returns before () after) :
    holds (⟨source, followed ++ [dependency]⟩ :: frames) opened after := by
  unfold Walk.follow at returns
  simp only [Step.Returns.bind_iff, Step.Returns.of_except_iff] at returns
  obtain ⟨target, _, ⟨checked, rfl⟩, _, mentioned, first, _, visited, second, _, refreshed, third,
    last⟩ := returns
  have found := (target_of_ok checked).1
  have same := Graph.id_of_node? found
  rw [← same] at found
  have member : dependency ∈ source.dependencies := by simp [← place]
  have opened := carries.mention start found first
  have advances : Advances before mentioned :=
    (mention_keeps target fun _ _ kept => kept).returns first (Advances.refl before)
  obtain ⟨next, seen⟩ := visits advances opened ⟨dependency, member, same.symm⟩ second
  exact carries.close next place same.symm found (target_of_ok checked).2 seen third last

/-- A visit with depth enough for the unseen nodes carries what its stages carry, and the node is
seen after it. -/
theorem visitFrom (carries : Carries graph roots holds) {bound : Nat} {id : Id}
    {frames : List Frame} {opened : List Id} {before after : Walk}
    (enough : unseenIn graph before < bound) (start : holds frames opened before)
    (leads : LeadsTo roots frames id)
    (returns : (Walk.visitFrom graph bound id).Returns before () after) :
    holds frames opened after ∧ after.progressOf id ≠ .unseen := by
  induction bound generalizing id frames opened before after with
  | zero => omega
  | succ bound induction =>
      simp only [Walk.visitFrom, visitWith, Step.Returns.bind_iff, Step.Returns.get_iff] at returns
      obtain ⟨_, _, ⟨rfl, rfl⟩, returns⟩ := returns
      split at returns
      · rename_i seen
        obtain ⟨_, rfl⟩ := Step.Returns.pure_iff.mp returns
        exact ⟨start, seen⟩
      · rename_i notSeen
        have unseen : before.progressOf id = .unseen := by simpa using notSeen
        split at returns
        · exact (Step.Returns.fail_iff.mp returns).elim
        · rename_i node found
          have same := Graph.id_of_node? found
          subst same
          simp only [Step.Returns.bind_iff] at returns
          obtain ⟨_, entered, first, _, followed, second, last⟩ := returns
          have fewer := unseen_in_entered found unseen first
          have pushed := carries.enter start leads found unseen first
          -- the loop keeps what was seen, so the depth left is enough at each of its steps
          have looped := Step.Returns.forM_stages
            (fun done walk => holds (⟨node, done⟩ :: frames) opened walk ∧ Advances entered walk)
            (by
              rintro done dependency rest place middle _ next step ⟨reached, advances⟩
              have later := (follow_advances (visit_from_advances bound) node.id dependency).returns
                step advances
              refine ⟨carries.follow ?_ reached place step, later⟩
              intro opened id walk visited more here leads inner
              have least : unseenIn graph walk ≤ unseenIn graph entered :=
                (advances.trans more).unseen_in_le
              exact induction (by omega) here leads inner)
            second ⟨pushed, Advances.refl entered⟩
          refine ⟨carries.leave looped.1 last, ?_⟩
          have advances := (leave_advances node).returns last looped.2
          intro lost
          have marked := enter_marks first node.id
          rw [advances node.id lost] at marked
          simp at marked

/-- Visiting the roots one after another carries what the stages carry. -/
theorem visitRoots (carries : Carries graph roots holds) {given : List Id} {before after : Walk}
    (allowed : ∀ root ∈ given, root ∈ roots) (start : holds [] [] before)
    (returns : (given.forM (visitRoot graph)).Returns before () after) :
    holds [] [] after ∧ Advances before after ∧
      ∀ root ∈ given, after.progressOf root ≠ .unseen := by
  refine Step.Returns.forM_stages
    (fun done walk => holds [] [] walk ∧ Advances before walk ∧
      ∀ root ∈ done, walk.progressOf root ≠ .unseen) ?_ returns
    ⟨start, Advances.refl before, by simp⟩
  rintro done root rest place middle _ next step ⟨reached, advances, seen⟩
  unfold visitRoot at step
  split at step
  · exact (Step.Returns.fail_iff.mp step).elim
  · have member : root ∈ roots := allowed root (by simp [← place])
    have few : unseenIn graph middle < graph.size + 1 :=
      Nat.lt_succ_of_le (unseen_in_le_size graph middle)
    obtain ⟨kept, met⟩ := carries.visitFrom few reached member step
    have more := (visit_from_advances _ root).returns step (Advances.refl middle)
    refine ⟨kept, advances.trans more, ?_⟩
    intro other listed lost
    rcases List.mem_append.mp listed with earlier | here
    · exact seen other earlier (more other lost)
    · cases List.mem_singleton.mp here
      exact met lost

theorem run (carries : Carries graph roots holds) {given : List Id} {before after : Walk}
    (allowed : ∀ root ∈ given, root ∈ roots) (start : holds [] [] before)
    (returns : (Walk.run graph given).Returns before () after) :
    holds [] [] after ∧ Advances before after ∧
      ∀ root ∈ given, after.progressOf root ≠ .unseen := by
  unfold Walk.run at returns
  simp only [Step.Returns.bind_iff, Step.Returns.get_iff] at returns
  obtain ⟨_, visited, loop, _, _, ⟨rfl, rfl⟩, last⟩ := returns
  have reached := carries.visitRoots allowed start loop
  split at last
  · have noted : ∀ event, (Walk.note event).Keeps fun walk => holds [] [] walk ∧
        Advances before walk ∧ ∀ root ∈ given, walk.progressOf root ≠ .unseen := by
      refine fun event => note_keeps event ?_
      rintro walk journal ⟨kept, advances, seen⟩
      exact ⟨carries.note kept, advances, seen⟩
    exact (noted _).returns last reached
  · exact (Step.Returns.fail_iff.mp last).elim

theorem runEach (carries : Carries graph roots holds) {calls : List (List Id)}
    {before after : Walk} {results : List (Except Fault Unit)}
    (allowed : ∀ given ∈ calls, ∀ root ∈ given, root ∈ roots) (start : holds [] [] before)
    (ran : Walk.runEach graph calls before = (results, after))
    (succeeded : ∀ result ∈ results, result = .ok ()) :
    holds [] [] after ∧ Advances before after ∧
      ∀ given ∈ calls, ∀ root ∈ given, after.progressOf root ≠ .unseen := by
  induction calls generalizing before results with
  | nil =>
      cases ran
      exact ⟨start, Advances.refl _, by simp⟩
  | cons given calls induction =>
      unfold Walk.runEach at ran
      rcases here : (Walk.run graph given).outcome before with ⟨result, middle⟩
      rcases later : Walk.runEach graph calls middle with ⟨others, last⟩
      simp only [here, later] at ran
      cases ran
      have good : result = .ok () := succeeded result (by simp)
      subst good
      obtain ⟨reached, advances, seen⟩ := carries.run (allowed given (by simp)) start here
      obtain ⟨kept, more, rest⟩ := induction
        (fun other member => allowed other (by simp [member])) reached later
        (fun other member => succeeded other (by simp [member]))
      refine ⟨kept, advances.trans more, ?_⟩
      intro other member root listed lost
      rcases List.mem_cons.mp member with rfl | inside
      · exact seen root listed (more root lost)
      · exact rest other inside root listed lost

end Carries

end SchemaStubs.Walk
