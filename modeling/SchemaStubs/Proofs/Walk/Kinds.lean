import SchemaStubs.Proofs.Walk.Reach

/-!
The kinds of what a walk meets. Every dependency is checked before it is followed, so in a graph that
was walked the nodes mentioned by the nodes met exist and are of the kinds they are mentioned as.
-/

namespace SchemaStubs.Walk

/-- The node that a dependency names is there and of the kind it has to be of. -/
def Fits (graph : Graph) (dependency : Dependency) : Prop :=
  ∃ target, graph.node? dependency.target = some target ∧
    ∀ wanted, dependency.wanted = some wanted → target.kind = wanted

structure Fitted (graph : Graph) (frames : List Frame) (walk : Walk) : Prop where
  followed : ∀ frame ∈ frames, ∀ dependency ∈ frame.followed, Fits graph dependency
  complete : ∀ id node, walk.progressOf id = .complete → graph.node? id = some node →
    ∀ dependency ∈ node.dependencies, Fits graph dependency

namespace Fitted

variable {graph : Graph} {roots : List Id} {frames : List Frame} {before after : Walk}

theorem start (graph : Graph) : Fitted graph [] {} where
  followed := by simp
  complete := by
    intro id node complete
    cases complete

theorem enter (holds : Fitted graph frames before) {node : Node}
    (returns : (Walk.enter graph node.id).Returns before () after) :
    Fitted graph (⟨node, []⟩ :: frames) after where
  followed := by
    intro frame member dependency listed
    rcases List.mem_cons.mp member with rfl | inside
    · cases listed
    · exact holds.followed frame inside dependency listed
  complete := by
    intro id other complete
    rw [enter_marks returns id] at complete
    split at complete
    · cases complete
    · exact holds.complete id other complete

theorem mention (holds : Fitted graph frames before) {target : Node}
    (returns : (Walk.mention target).Returns before () after) : Fitted graph frames after := by
  have keeps : (Walk.mention target).Keeps fun walk => Fitted graph frames walk :=
    mention_keeps target fun _ _ kept => ⟨kept.followed, kept.complete⟩
  exact keeps.returns returns holds

theorem close {source target : Node} {followed : List Dependency} {dependency : Dependency}
    {middle : Walk} (holds : Fitted graph (⟨source, followed⟩ :: frames) before)
    (fits : Fits graph dependency)
    (refreshed : (refresh graph source.id dependency.via target).Returns before () middle)
    (recorded : (recordEdge ⟨source.id, dependency.via, target.id⟩).Returns middle () after) :
    Fitted graph (⟨source, followed ++ [dependency]⟩ :: frames) after := by
  have keeps : (refresh graph source.id dependency.via target).Keeps fun walk =>
      Fitted graph (⟨source, followed⟩ :: frames) walk :=
    refresh_keeps _ _ _ fun _ _ _ _ kept => ⟨kept.followed, kept.complete⟩
  have kept := keeps.returns refreshed holds
  cases Step.Returns.modify_iff.mp recorded
  refine ⟨?_, kept.complete⟩
  intro frame member other listed
  rcases List.mem_cons.mp member with rfl | inside
  · rcases List.mem_append.mp listed with earlier | last
    · exact kept.followed _ List.mem_cons_self other earlier
    · cases List.mem_singleton.mp last
      exact fits
  · exact kept.followed frame (List.mem_cons_of_mem _ inside) other listed

theorem leave {node : Node} (holds : Fitted graph (⟨node, node.dependencies⟩ :: frames) before)
    (found : graph.node? node.id = some node)
    (returns : (Walk.leave graph node).Returns before () after) : Fitted graph frames after := by
  unfold Walk.leave setProgress at returns
  rw [Step.Returns.bind_iff] at returns
  obtain ⟨_, middle, marks, settles⟩ := returns
  have keeps : (settle graph node).Keeps fun walk => Fitted graph frames walk :=
    settle_keeps node fun _ _ _ _ kept => ⟨kept.followed, kept.complete⟩
  apply keeps.returns settles
  cases Step.Returns.modify_iff.mp marks
  refine ⟨fun frame member => holds.followed frame (List.mem_cons_of_mem _ member), ?_⟩
  intro id other complete met
  rw [progress_of_set] at complete
  split at complete
  · rename_i same
    subst same
    rw [found] at met
    cases met
    exact holds.followed _ List.mem_cons_self
  · exact holds.complete id other complete met

end Fitted

theorem fitted_carries (graph : Graph) (roots : List Id) :
    Carries graph roots fun frames _ walk =>
      Traverses graph roots frames walk ∧ Fitted graph frames walk where
  enter holds leads found unseen returns :=
    ⟨holds.1.enter leads found unseen returns, holds.2.enter returns⟩
  mention holds _ returns := ⟨holds.1.mention returns, holds.2.mention returns⟩
  close holds place aimed found wanted seen refreshed recorded :=
    ⟨holds.1.close (by simp [← place]) aimed seen refreshed recorded,
      holds.2.close ⟨_, aimed ▸ found, wanted⟩ refreshed recorded⟩
  leave holds returns :=
    ⟨holds.1.leave returns, holds.2.leave (holds.1.found _ List.mem_cons_self) returns⟩
  note holds := ⟨holds.1.blind _ _ _, ⟨holds.2.followed, holds.2.complete⟩⟩

/-- Whatever a node met by a walk depends on is there and of the kind it has to be of. -/
theorem fits_of_mem_order {graph : Graph} {roots : List Id} {walk : Walk}
    (traverses : Traverses graph roots [] walk) (fitted : Fitted graph [] walk) {id : Id}
    {node : Node} (member : id ∈ walk.order) (found : graph.node? id = some node)
    {dependency : Dependency} (depends : dependency ∈ node.dependencies) :
    Fits graph dependency :=
  fitted.complete id node ((traverses.mem_order_iff_complete id).mp member) found dependency depends

end SchemaStubs.Walk
