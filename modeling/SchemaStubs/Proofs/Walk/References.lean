import SchemaStubs.Proofs.Walk.Reach

/-!
The references of a walk. A reference is fresh while the edge that asked for it is being followed,
pending while its target is under way, and located once the target is complete; no other state
occurs, and a walk that has come to its end leaves located references only.
-/

namespace SchemaStubs.Walk

/-- What the reference to a node can be, given the targets at hand and the state. -/
inductive Stage (graph : Graph) (opened : List Id) (walk : Walk) (node : Node) :
    Reference → Prop where
  | fresh (busy : node.id ∈ opened) (unawaited : node.id ∉ walk.awaited) :
      Stage graph opened walk node { target := node.id, kind := node.kind }
  | pending (underWay : walk.progressOf node.id = .underWay) (awaited : node.id ∈ walk.awaited) :
      Stage graph opened walk node { target := node.id, kind := node.kind, pending := true }
  | located {file : Node} {internal : String} (complete : walk.progressOf node.id = .complete)
      (unawaited : node.id ∉ walk.awaited) (inFile : graph.file node.id = .ok file)
      (identified : graph.Identifies node internal) :
      Stage graph opened walk node
        { target := node.id, kind := node.kind, file := file.id, internal }

/-- The references of a walk fit its edges, its marks and the targets at hand. -/
structure Referenced (graph : Graph) (opened : List Id) (walk : Walk) : Prop where
  staged : ∀ id reference, walk.reference? id = some reference →
    ∃ node, graph.node? id = some node ∧ Stage graph opened walk node reference
  busy : ∀ id ∈ opened, (walk.reference? id).isSome
  mentioned : ∀ edge ∈ walk.edges, (walk.reference? edge.target).isSome
  awaited : ∀ id ∈ walk.awaited, (walk.reference? id).isSome
  edged : ∀ id, (walk.reference? id).isSome → id ∈ opened ∨ ∃ edge ∈ walk.edges, edge.target = id

theorem reference?_set (walk : Walk) (reference : Reference) (id : Id) :
    reference? { walk with references := walk.references.set reference.target reference } id =
      if id = reference.target then some reference else walk.reference? id :=
  Table.get?_set walk.references reference.target id reference

theorem locate_returns {graph : Graph} {node : Node} {before after : Walk} {reference : Reference}
    (returns : (locate graph node).Returns before reference after) :
    before = after ∧ ∃ file, graph.file node.id = .ok file ∧ reference =
      { target := node.id, kind := node.kind, file := file.id
        internal := (before.registry.internal? node.id).getD "" } := by
  unfold locate at returns
  simp only [Step.Returns.bind_iff, Step.Returns.get_iff, Step.Returns.of_except_iff,
    Step.Returns.pure_iff] at returns
  obtain ⟨_, _, ⟨rfl, rfl⟩, file, _, ⟨inFile, rfl⟩, rfl, rfl⟩ := returns
  exact ⟨rfl, file, inFile, rfl⟩

theorem note_returns {event : Journal.Event} {before after : Walk}
    (returns : (note event).Returns before () after) :
    after = { before with
      registry := { before.registry with journal := before.registry.journal ++ [event] } } := by
  have whole : (note event).outcome before = (.ok (), { before with
      registry := { before.registry with journal := before.registry.journal ++ [event] } }) := rfl
  rw [returns] at whole
  exact (Prod.mk.inj whole).2

/-- Leaving a node marks it complete and replaces the reference that waits for it, if one does. -/
theorem leave_returns {graph : Graph} {node : Node} {before after : Walk}
    (returns : (leave graph node).Returns before () after) :
    node.id ∉ before.awaited ∧
        after = { before with progress := before.progress.set node.id .complete } ∨
      node.id ∈ before.awaited ∧ ∃ file journal, graph.file node.id = .ok file ∧
        after = { before with
          progress := before.progress.set node.id .complete
          awaited := before.awaited.filter fun id => id != node.id
          references := before.references.set node.id
            { target := node.id, kind := node.kind, file := file.id
              internal := (before.registry.internal? node.id).getD "" }
          registry := { before.registry with journal } } := by
  unfold leave setProgress settle at returns
  simp only [Step.Returns.bind_iff, Step.Returns.modify_iff, Step.Returns.get_iff] at returns
  obtain ⟨_, _, rfl, _, _, ⟨rfl, rfl⟩, returns⟩ := returns
  split at returns
  · rename_i awaited
    simp only [Step.Returns.bind_iff, Step.Returns.set_iff] at returns
    obtain ⟨_, _, rfl, located, _, locates, _, _, sets, notes⟩ := returns
    obtain ⟨rfl, file, inFile, rfl⟩ := locate_returns locates
    cases Step.Returns.modify_iff.mp sets
    exact .inr ⟨awaited, file, _, inFile, note_returns notes⟩
  · rename_i unawaited
    obtain ⟨_, rfl⟩ := Step.Returns.pure_iff.mp returns
    exact .inl ⟨unawaited, rfl⟩

/-- The registry holds for a node met the identifier that the graph gives it. -/
theorem Traverses.identifies {graph : Graph} {roots : List Id} {frames : List Frame} {walk : Walk}
    (holds : Traverses graph roots frames walk) {node : Node}
    (found : graph.node? node.id = some node) (met : node.id ∈ walk.order) :
    ∃ internal, walk.registry.internal? node.id = some internal ∧
      graph.Identifies node internal := by
  obtain ⟨internal, held⟩ := Option.isSome_iff_exists.mp (holds.registered node.id met)
  obtain ⟨other, same, identified⟩ := holds.canonical node.id internal held
  rw [found] at same
  cases same
  exact ⟨internal, held, identified⟩

structure Unmoved (id : Id) (opened opened' : List Id) (before after : Walk) : Prop where
  reference : after.reference? id = before.reference? id
  progress : after.progressOf id = before.progressOf id
  awaited : id ∈ after.awaited ↔ id ∈ before.awaited
  opened : id ∈ opened' ↔ id ∈ opened
  edges : (∃ edge ∈ after.edges, edge.target = id) ↔ ∃ edge ∈ before.edges, edge.target = id

/-- The reference to a target that was at hand is up to date: it is pending or located, and no other
node is concerned. -/
structure Refreshed (graph : Graph) (opened : List Id) (target : Node) (before after : Walk) :
    Prop where
  edges : after.edges = before.edges
  staged : ∃ reference, after.reference? target.id = some reference ∧
    Stage graph opened after target reference
  others : ∀ id, id ≠ target.id → Unmoved id (target.id :: opened) opened before after

theorem Stage.transfer {graph : Graph} {opened opened' : List Id} {before after : Walk}
    {node : Node} {reference : Reference} (stage : Stage graph opened before node reference)
    (progress : before.progressOf node.id ≠ .unseen →
      after.progressOf node.id = before.progressOf node.id)
    (awaited : node.id ∈ after.awaited ↔ node.id ∈ before.awaited)
    (busy : node.id ∈ opened → node.id ∈ opened') : Stage graph opened' after node reference := by
  cases stage with
  | fresh open' unawaited => exact .fresh (busy open') fun member => unawaited (awaited.mp member)
  | pending underWay member =>
      exact .pending ((progress (by simp [underWay])).trans underWay) (awaited.mpr member)
  | located complete unawaited inFile identified =>
      refine .located ((progress (by simp [complete])).trans complete) ?_ inFile identified
      exact fun member => unawaited (awaited.mp member)

namespace Referenced

variable {graph : Graph} {roots : List Id} {frames : List Frame} {opened opened' : List Id}
  {target : Node} {before after : Walk}

theorem start (graph : Graph) : Referenced graph [] {} where
  staged := by
    intro id reference known
    cases known
  busy := by simp
  mentioned := by simp
  awaited := by simp
  edged := by
    intro id known
    cases known

theorem blind {walk : Walk} (holds : Referenced graph opened walk)
    (journal : List Journal.Event) :
    Referenced graph opened { walk with registry := { walk.registry with journal } } := by
  refine ⟨?_, holds.busy, holds.mentioned, holds.awaited, holds.edged⟩
  intro id reference known
  obtain ⟨node, found, stage⟩ := holds.staged id reference known
  exact ⟨node, found, stage.transfer (fun _ => rfl) Iff.rfl fun open' => open'⟩

theorem touch {node : Node} {reference : Reference} (holds : Referenced graph opened before)
    (found : graph.node? node.id = some node) (here : after.reference? node.id = some reference)
    (stage : Stage graph opened' after node reference)
    (edged : node.id ∈ opened' ∨ ∃ edge ∈ after.edges, edge.target = node.id)
    (others : ∀ id, id ≠ node.id → Unmoved id opened opened' before after) :
    Referenced graph opened' after := by
  have known : (after.reference? node.id).isSome := by simp [here]
  constructor
  case staged =>
    intro id other held
    by_cases same : id = node.id
    · subst same
      rw [here] at held
      cases held
      exact ⟨node, found, stage⟩
    · have unmoved := others id same
      rw [unmoved.reference] at held
      obtain ⟨target, met, earlier⟩ := holds.staged id other held
      have sameId := Graph.id_of_node? met
      subst sameId
      exact ⟨target, met,
        earlier.transfer (fun _ => unmoved.progress) unmoved.awaited unmoved.opened.mpr⟩
  case busy =>
    intro id member
    by_cases same : id = node.id
    · rwa [same]
    · rw [(others id same).reference]
      exact holds.busy id ((others id same).opened.mp member)
  case mentioned =>
    intro edge member
    by_cases same : edge.target = node.id
    · rwa [same]
    · have unmoved := others edge.target same
      obtain ⟨earlier, listed, aimed⟩ := unmoved.edges.mp ⟨edge, member, rfl⟩
      rw [unmoved.reference, ← aimed]
      exact holds.mentioned earlier listed
  case awaited =>
    intro id member
    by_cases same : id = node.id
    · rwa [same]
    · rw [(others id same).reference]
      exact holds.awaited id ((others id same).awaited.mp member)
  case edged =>
    intro id held
    by_cases same : id = node.id
    · rwa [same]
    · have unmoved := others id same
      rw [unmoved.reference] at held
      rcases holds.edged id held with busy | edge
      · exact .inl (unmoved.opened.mpr busy)
      · exact .inr (unmoved.edges.mpr edge)

theorem enter (holds : Referenced graph opened before) {id : Id}
    (unseen : before.progressOf id = .unseen)
    (returns : (enter graph id).Returns before () after) : Referenced graph opened after := by
  have marked := enter_marks returns
  obtain ⟨internal, registry, _, rfl⟩ := enter_returns returns
  refine ⟨?_, holds.busy, holds.mentioned, holds.awaited, holds.edged⟩
  intro other reference known
  obtain ⟨node, found, stage⟩ := holds.staged other reference known
  refine ⟨node, found, stage.transfer (fun seen => ?_) Iff.rfl fun open' => open'⟩
  have apart : node.id ≠ id := by
    intro same
    rw [same] at seen
    exact seen unseen
  simp [marked, apart]

theorem mention (holds : Referenced graph opened before)
    (found : graph.node? target.id = some target)
    (returns : (mention target).Returns before () after) :
    Referenced graph (target.id :: opened) after := by
  unfold Walk.mention setReference at returns
  simp only [Step.Returns.bind_iff, Step.Returns.get_iff] at returns
  obtain ⟨_, _, ⟨rfl, rfl⟩, returns⟩ := returns
  split at returns
  · rename_i absent
    have missing : before.reference? target.id = none := by simpa using absent
    cases Step.Returns.modify_iff.mp returns
    have set := reference?_set before { target := target.id, kind := target.kind }
    refine holds.touch found ((set target.id).trans (by simp)) (.fresh (by simp) ?_) (by simp) ?_
    · intro awaited
      have known := holds.awaited target.id awaited
      simp [missing] at known
    · intro id apart
      exact ⟨(set id).trans (by simp [apart]), rfl, Iff.rfl, by simp [apart], Iff.rfl⟩
  · rename_i present
    obtain ⟨_, rfl⟩ := Step.Returns.pure_iff.mp returns
    obtain ⟨reference, known⟩ := Option.ne_none_iff_exists'.mp (by simpa using present)
    obtain ⟨node, met, stage⟩ := holds.staged target.id reference known
    rw [found] at met
    cases met
    refine holds.touch found known
      (stage.transfer (fun _ => rfl) Iff.rfl (List.mem_cons_of_mem _)) (by simp) ?_
    intro id apart
    exact ⟨rfl, rfl, Iff.rfl, by simp [apart], Iff.rfl⟩

theorem locate_refreshed (traverses : Traverses graph roots frames before)
    (found : graph.node? target.id = some target)
    (complete : before.progressOf target.id = .complete) (unawaited : target.id ∉ before.awaited)
    (returns : (locate graph target >>= setReference).Returns before () after) :
    Refreshed graph opened target before after := by
  rw [Step.Returns.bind_iff] at returns
  obtain ⟨located, _, locates, sets⟩ := returns
  obtain ⟨rfl, file, inFile, rfl⟩ := locate_returns locates
  cases Step.Returns.modify_iff.mp sets
  obtain ⟨internal, held, identified⟩ :=
    traverses.identifies found ((traverses.order_iff target.id).mpr (by simp [complete]))
  rw [held, Option.getD_some]
  have set := reference?_set before
    { target := target.id, kind := target.kind, file := file.id, internal }
  refine ⟨rfl, ⟨_, (set target.id).trans (if_pos rfl), ?_⟩, fun id apart => ?_⟩
  · exact .located complete unawaited inFile identified
  · exact ⟨(set id).trans (if_neg apart), rfl, Iff.rfl, by simp [apart], Iff.rfl⟩

/-- The reference to a target under way waits for it from now on, if it did not before. -/
theorem postpone_refreshed {reference : Reference}
    (stage : Stage graph (target.id :: opened) before target reference)
    (known : before.reference? target.id = some reference)
    (underWay : before.progressOf target.id = .underWay) {source : Id} {via : Via}
    (returns : (postpone source via target reference).Returns before () after) :
    Refreshed graph opened target before after := by
  unfold postpone at returns
  rw [Step.Returns.bind_iff] at returns
  obtain ⟨_, _, noting, returns⟩ := returns
  cases note_returns noting
  split at returns
  · rename_i waits
    obtain ⟨_, rfl⟩ := Step.Returns.pure_iff.mp returns
    refine ⟨rfl, ⟨reference, known, ?_⟩, fun id apart => ?_⟩
    · cases stage with
      | fresh _ _ => cases waits
      | pending _ awaited => exact .pending underWay awaited
      | located _ _ _ _ => cases waits
    · exact ⟨rfl, rfl, Iff.rfl, by simp [apart], Iff.rfl⟩
  · rename_i idle
    unfold setReference at returns
    simp only [Step.Returns.bind_iff, Step.Returns.modify_iff] at returns
    obtain ⟨_, _, rfl, rfl⟩ := returns
    cases stage with
    | pending _ _ => exact absurd rfl idle
    | located complete _ _ _ => rw [underWay] at complete; cases complete
    | fresh _ _ =>
        have set := reference?_set before
          { target := target.id, kind := target.kind, pending := true }
        refine ⟨rfl, ⟨_, (set target.id).trans (if_pos rfl), ?_⟩, fun id apart => ?_⟩
        · exact .pending underWay (by simp)
        · exact ⟨(set id).trans (if_neg apart), rfl, by simp [apart], by simp [apart], Iff.rfl⟩

theorem refresh (holds : Referenced graph (target.id :: opened) before)
    (traverses : Traverses graph roots frames before)
    (found : graph.node? target.id = some target) (seen : before.progressOf target.id ≠ .unseen)
    {source : Id} {via : Via}
    (returns : (refresh graph source via target).Returns before () after) :
    Refreshed graph opened target before after := by
  obtain ⟨reference, known⟩ := Option.isSome_iff_exists.mp (holds.busy target.id (by simp))
  obtain ⟨node, met, stage⟩ := holds.staged target.id reference known
  rw [found] at met
  cases met
  unfold Walk.refresh at returns
  rw [Step.Returns.bind_iff] at returns
  obtain ⟨_, _, asked, returns⟩ := returns
  obtain ⟨rfl, rfl⟩ := Step.Returns.get_iff.mp asked
  simp only [known, Option.getD_some] at returns
  split at returns
  · rename_i complete
    split at returns
    · have unawaited : target.id ∉ before.awaited := by
        cases stage with
        | fresh _ unawaited => exact unawaited
        | pending underWay _ => rw [complete] at underWay; cases underWay
        | located _ unawaited _ _ => exact unawaited
      exact locate_refreshed traverses found complete unawaited returns
    · rename_i filed
      obtain ⟨_, rfl⟩ := Step.Returns.pure_iff.mp returns
      refine ⟨rfl, ⟨reference, known, ?_⟩, fun id apart => ?_⟩
      · cases stage with
        | fresh _ _ => exact absurd rfl filed
        | pending _ _ => exact absurd rfl filed
        | located complete unawaited inFile identified =>
            exact .located complete unawaited inFile identified
      · exact ⟨rfl, rfl, Iff.rfl, by simp [apart], Iff.rfl⟩
  · rename_i underWay
    exact postpone_refreshed stage known underWay returns
  · rename_i unseen
    exact absurd unseen seen

theorem close {source : Id} {via : Via} {middle : Walk}
    (holds : Referenced graph (target.id :: opened) before)
    (traverses : Traverses graph roots frames before)
    (found : graph.node? target.id = some target) (seen : before.progressOf target.id ≠ .unseen)
    (refreshed : (Walk.refresh graph source via target).Returns before () middle)
    (recorded : (recordEdge ⟨source, via, target.id⟩).Returns middle () after) :
    Referenced graph opened after := by
  obtain ⟨edges, ⟨reference, known, stage⟩, others⟩ :=
    holds.refresh traverses found seen refreshed
  cases Step.Returns.modify_iff.mp recorded
  refine holds.touch found known (stage.transfer (fun _ => rfl) Iff.rfl fun busy => busy)
    (.inr ⟨_, List.mem_append_right _ (List.mem_singleton_self _), rfl⟩) fun id apart => ?_
  refine { others id apart with edges := ?_ }
  simp [edges, or_and_right, exists_or, Ne.symm apart]

/-- When a node is complete the reference that waits for it is located. -/
theorem leave {node : Node} (holds : Referenced graph opened before)
    (traverses : Traverses graph roots (⟨node, node.dependencies⟩ :: frames) before)
    (returns : (leave graph node).Returns before () after) : Referenced graph opened after := by
  have underWay := (traverses.underWay_iff node.id).mpr ⟨_, List.mem_cons_self, rfl⟩
  have found : graph.node? node.id = some node := traverses.found _ List.mem_cons_self
  have marked := fun id => progress_of_set before node.id id .complete
  rcases leave_returns returns with ⟨unawaited, rfl⟩ | ⟨awaited, file, journal, inFile, rfl⟩
  · refine ⟨?_, holds.busy, holds.mentioned, holds.awaited, holds.edged⟩
    intro id reference known
    obtain ⟨other, met, stage⟩ := holds.staged id reference known
    refine ⟨other, met, ?_⟩
    by_cases same : other.id = node.id
    · -- a reference that nobody waits for is fresh: the node was under way until now
      cases stage with
      | fresh busy _ => exact .fresh busy (same ▸ unawaited)
      | pending _ awaited => exact absurd (same ▸ awaited) unawaited
      | located complete _ _ _ =>
          rw [same, underWay] at complete
          cases complete
    · exact stage.transfer (fun _ => (marked other.id).trans (if_neg same)) Iff.rfl
        fun busy => busy
  · obtain ⟨internal, held, identified⟩ :=
      traverses.identifies found (traverses.mem_order_of_frame List.mem_cons_self)
    rw [held, Option.getD_some]
    have set := reference?_set before
      { target := node.id, kind := node.kind, file := file.id, internal }
    refine holds.touch found ((set node.id).trans (if_pos rfl)) ?_ ?_ fun id apart => ?_
    · exact .located ((marked node.id).trans (if_pos rfl)) (by simp) inFile identified
    · exact holds.edged node.id (holds.awaited node.id awaited)
    · exact ⟨(set id).trans (if_neg apart), (marked id).trans (if_neg apart), by simp [apart],
        Iff.rfl, Iff.rfl⟩

/-- With no target at hand, only a node that was met is referred to. -/
theorem mem_order {walk : Walk} (holds : Referenced graph [] walk)
    (traverses : Traverses graph roots frames walk) {target : Id} {reference : Reference}
    (known : walk.reference? target = some reference) : target ∈ walk.order := by
  obtain ⟨node, found, stage⟩ := holds.staged target reference known
  rw [← Graph.id_of_node? found, traverses.order_iff]
  cases stage with
  | fresh busy _ => cases busy
  | pending underWay _ => simp [underWay]
  | located complete _ _ _ => simp [complete]

/-- With nothing under way and no target at hand, every reference is located. -/
theorem located {walk : Walk} (holds : Referenced graph [] walk)
    (traverses : Traverses graph roots [] walk) {target : Id} {reference : Reference}
    (known : walk.reference? target = some reference) :
    reference.pending = false ∧ reference.target = target ∧ target ∉ walk.awaited ∧
      ∃ node file, graph.node? target = some node ∧ reference.kind = node.kind ∧
        graph.file target = .ok file ∧ reference.file = file.id ∧
        walk.registry.internal? target = some reference.internal := by
  obtain ⟨node, found, stage⟩ := holds.staged target reference known
  have same := Graph.id_of_node? found
  subst same
  cases stage with
  | fresh busy _ => cases busy
  | pending underWay _ =>
      obtain ⟨frame, member, _⟩ := (traverses.underWay_iff node.id).mp underWay
      cases member
  | located complete unawaited inFile identified =>
      obtain ⟨held, inRegistry, canonical⟩ :=
        traverses.identifies found ((traverses.mem_order_iff_complete node.id).mpr complete)
      refine ⟨rfl, rfl, unawaited, node, _, found, rfl, inFile, rfl, ?_⟩
      rw [inRegistry, canonical.unique identified]

theorem pending_targets_eq_nil {walk : Walk} (holds : Referenced graph [] walk)
    (traverses : Traverses graph roots [] walk) : walk.pendingTargets = [] := by
  refine List.filter_eq_nil_iff.mpr fun target _ isPending => ?_
  unfold Walk.isPending at isPending
  obtain ⟨reference, known, pending⟩ := (Option.any_eq_true _ _).mp isPending
  rw [(holds.located traverses known).1] at pending
  cases pending

theorem awaited_eq_nil {walk : Walk} (holds : Referenced graph [] walk)
    (traverses : Traverses graph roots [] walk) : walk.awaited = [] := by
  refine List.eq_nil_iff_forall_not_mem.mpr fun id member => ?_
  obtain ⟨reference, known⟩ := Option.isSome_iff_exists.mp (holds.awaited id member)
  exact (holds.located traverses known).2.2.1 member

end Referenced

theorem referenced_carries (graph : Graph) (roots : List Id) :
    Carries graph roots fun frames opened walk =>
      Traverses graph roots frames walk ∧ Referenced graph opened walk where
  enter holds leads found unseen returns :=
    ⟨holds.1.enter leads found unseen returns, holds.2.enter unseen returns⟩
  mention holds found returns := ⟨holds.1.mention returns, holds.2.mention found returns⟩
  close holds place aimed found _ seen refreshed recorded :=
    ⟨holds.1.close (by simp [← place]) aimed seen refreshed recorded,
      holds.2.close holds.1 found seen refreshed recorded⟩
  leave holds returns := ⟨holds.1.leave returns, holds.2.leave holds.1 returns⟩
  note holds := ⟨holds.1.blind _ _ _, holds.2.blind _⟩

/-- Walks that have no other fault do not end with pending references either. -/
theorem run_each_succeeds {graph : Graph} (ends : graph.ScopesEnd) {roots : List Id}
    {calls : List (List Id)} {before : Walk}
    (allowed : ∀ given ∈ calls, ∀ root ∈ given, root ∈ roots)
    (start : Traverses graph roots [] before ∧ Referenced graph [] before)
    (noOther : ∀ fault, .error fault ∈ (runEach graph calls before).1 →
      fault.class? = some .pendingReference) :
    ∀ result ∈ (runEach graph calls before).1, result = .ok () := by
  induction calls generalizing before with
  | nil =>
      intro result member
      cases member
  | cons given calls induction =>
      have carries := referenced_carries graph roots
      have allowedHere := allowed given (by simp)
      rcases here : (run graph given).outcome before with ⟨result, reached⟩
      have whole : (runEach graph (given :: calls) before).1 =
          result :: (runEach graph calls reached).1 := by
        simp [runEach, here]
      rw [whole] at noOther ⊢
      cases result with
      | error fault =>
          exfalso
          rcases run_error ends here with stops | ⟨visited, pending, _⟩
          · exact stops.class_ne_pending (noOther fault (by simp))
          · obtain ⟨kept, _⟩ := carries.visitRoots allowedHere start visited
            exact pending (kept.2.pending_targets_eq_nil kept.1)
      | ok value =>
          obtain ⟨kept, _⟩ := carries.run allowedHere start here
          have later := induction (fun other member => allowed other (by simp [member])) kept
            fun fault member => noOther fault (by simp [member])
          intro result member
          rcases List.mem_cons.mp member with rfl | inside
          · rfl
          · exact later result inside

/-- Unless a walk ends in another fault, none leaves a reference pending. The targets of the edges
are then what has a reference, and each reference tells the kind, the file and the identifier of
its target. -/
theorem runEach_locates_references {graph : Graph} (ends : graph.ScopesEnd)
    {calls : List (List Id)} {results : List (Except Fault Unit)} {walk : Walk}
    (ran : runEach graph calls {} = (results, walk))
    (noOther : ∀ fault, .error fault ∈ results → fault.class? = some .pendingReference) :
    (∀ result ∈ results, result = .ok ()) ∧
    (∀ target, (walk.reference? target).isSome ↔ ∃ edge ∈ walk.edges, edge.target = target) ∧
    (∀ target, (walk.reference? target).isSome ↔
      ∃ source ∈ walk.order, graph.DependsOn source target) ∧
    (∀ target reference, walk.reference? target = some reference →
      reference.pending = false ∧ reference.target = target ∧
      ∃ node file, graph.node? target = some node ∧ reference.kind = node.kind ∧
        graph.file target = .ok file ∧ reference.file = file.id ∧
        walk.registry.internal? target = some reference.internal) ∧
    walk.awaited = [] ∧ walk.pendingTargets = [] := by
  have allowed : ∀ given ∈ calls, ∀ root ∈ given, root ∈ calls.flatten :=
    fun given member root listed => List.mem_flatten.mpr ⟨given, member, listed⟩
  have start : Traverses graph calls.flatten [] {} ∧ Referenced graph [] {} :=
    ⟨Traverses.start graph calls.flatten, Referenced.start graph⟩
  have succeeded := run_each_succeeds ends allowed start (by rw [ran]; exact noOther)
  rw [ran] at succeeded
  obtain ⟨⟨traverses, holds⟩, _, _⟩ :=
    (referenced_carries graph calls.flatten).runEach allowed start ran succeeded
  have edged : ∀ target, (walk.reference? target).isSome ↔
      ∃ edge ∈ walk.edges, edge.target = target := by
    intro target
    constructor
    · intro known
      exact (holds.edged target known).resolve_left (by simp)
    · rintro ⟨edge, member, rfl⟩
      exact holds.mentioned edge member
  refine ⟨succeeded, edged, fun target => (edged target).trans (traverses.edge_iff_depends_on target),
    ?_, holds.awaited_eq_nil traverses, holds.pending_targets_eq_nil traverses⟩
  intro target reference known
  obtain ⟨settled, aimed, _, described⟩ := holds.located traverses known
  exact ⟨settled, aimed, described⟩

theorem runEach_locates_references_circle :
    circle.ScopesEnd ∧ (runEach circle [[2], [1]] {}).1 = [.ok (), .ok ()] ∧
    (runEach circle [[2], [1]] {}).2.reference? 2 =
      some { target := 2, kind := .struct, file := 1, internal := "_BranchStructModule" } ∧
    (∃ edge ∈ (runEach circle [[2], [1]] {}).2.edges, edge.target = 2) ∧
    (runEach circle [[2], [1]] {}).2.awaited = [] := by
  have ends : circle.ScopesEnd := by decide +kernel
  have succeeded : (runEach circle [[2], [1]] {}).1 = [.ok (), .ok ()] := by decide +kernel
  have known : (runEach circle [[2], [1]] {}).2.reference? 2 =
      some { target := 2, kind := .struct, file := 1, internal := "_BranchStructModule" } := by
    decide +kernel
  obtain ⟨_, edged, _, _, awaited, _⟩ :=
    runEach_locates_references ends (Prod.eta (runEach circle [[2], [1]] {})).symm
      (by simp [succeeded])
  exact ⟨ends, succeeded, known, (edged 2).mp (by simp [known]), awaited⟩

end SchemaStubs.Walk
