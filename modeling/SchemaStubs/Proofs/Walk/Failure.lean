import SchemaStubs.Fault
import SchemaStubs.Proofs.Schema.ScopeChain
import SchemaStubs.Proofs.Walk.Stages

/-!
The faults a walk can end in. Where every scope chain ends at a file, a visit stops only at a target
that is missing or of the wrong kind, or at two classes of one name; the searches along scopes
always come to an end.
-/

namespace SchemaStubs

inductive Walk.Stops : Fault → Prop where
  | missing (source target : Id) (via : String) : Stops (Cause.unresolvedReference source target via)
  | collision (name : String) (first second : Id) : Stops (Cause.nameCollision name first second)
  | wrongKind (source target : Id) (wanted : NodeKind) (via : String) (actual : NodeKind) :
      Stops (Defect.wrongTargetKind source target wanted via actual)

theorem Walk.Stops.class_ne_pending {fault : Fault} (stops : Walk.Stops fault) :
    fault.class? ≠ some .pendingReference := by
  cases stops <;> simp [Fault.class?, Cause.class?]

theorem Walk.Stops.ne_endless {fault : Fault} (stops : Walk.Stops fault) (start : Id) :
    fault ≠ Defect.endlessScope start := by
  cases stops <;> simp

theorem Walk.Stops.expected {fault : Fault} (stops : Walk.Stops fault) : fault.Expected := by
  cases stops with
  | missing source target via => exact .unresolved source target via
  | collision name first second => exact .collision name first second
  | wrongKind source target wanted via actual => exact ⟨rfl, by simp, by simp⟩

namespace Registry

variable {graph : Graph}

theorem note_fails_as {faults : Fault → Prop} (event : Journal.Event) :
    (note event).FailsAs faults :=
  .of_modify _

theorem record_fails_as {faults : Fault → Prop} (node : Node) (internal : String) :
    (record node internal).FailsAs faults :=
  .of_bind (.of_modify _) fun _ => .of_bind (note_fails_as _) fun _ => .of_pure _

theorem claim_segment_fails_as (node : Node) (segment : String) :
    (claimSegment node segment).FailsAs Walk.Stops := by
  unfold claimSegment
  refine .of_bind .of_get fun registry => ?_
  split
  · split
    · exact .of_pure _
    · exact .of_fail (.collision _ _ _)
  · exact .of_set _

theorem register_from_fails_as {bound : Nat} {id : Id} {node file : Node} {scopes : List Node}
    (found : graph.node? id = some node) (chain : graph.ScopeChain node scopes file)
    (enough : scopes.length < bound) : (registerFrom graph bound id).FailsAs Walk.Stops := by
  induction bound generalizing id node scopes with
  | zero => omega
  | succ bound induction =>
      unfold registerFrom
      refine .of_bind .of_get fun registry => ?_
      split
      · exact .of_pure _
      · simp only [found]
        split
        · exact record_fails_as _ _
        · rename_i module
          cases chain with
          | file isFile => simp [isFile, NodeKind.hasModule] at module
          | up inner scopeFound above =>
              rename_i scope rest
              have shorter : rest.length < bound := by
                simp only [List.length_cons] at enough
                omega
              split
              · exact .of_bind (induction scopeFound above shorter) fun parent =>
                  record_fails_as _ _
              · refine .of_bind (claim_segment_fails_as _ _) fun _ => ?_
                simp only [scopeFound]
                split
                · exact record_fails_as _ _
                · rw [Graph.id_of_node? scopeFound]
                  exact .of_bind (induction scopeFound above shorter) fun parent =>
                    record_fails_as _ _

theorem register_fails_as (ends : graph.ScopesEnd) {id : Id} {node : Node}
    (found : graph.node? id = some node) : (register graph id).FailsAs Walk.Stops := by
  obtain ⟨scopes, file, chain⟩ := ends node (Graph.mem_of_node? found)
  exact register_from_fails_as found chain (Nat.lt_succ_of_le chain.length_le)

end Registry

namespace Walk

variable {graph : Graph}

theorem locate_fails_as {faults : Fault → Prop} (ends : graph.ScopesEnd) {node : Node}
    (found : graph.node? node.id = some node) : (locate graph node).FailsAs faults := by
  obtain ⟨file, located⟩ := ends.file_ok found
  unfold locate
  refine .of_bind .of_get fun walk => .of_check ?_ fun file _ => .of_pure _
  intro fault failed
  rw [located] at failed
  cases failed

theorem settle_fails_as {faults : Fault → Prop} (ends : graph.ScopesEnd) {node : Node}
    (found : graph.node? node.id = some node) : (settle graph node).FailsAs faults := by
  unfold settle
  refine .of_bind .of_get fun walk => ?_
  split
  · refine .of_bind (.of_set _) fun _ => .of_bind (locate_fails_as ends found) fun reference => ?_
    exact .of_bind (.of_modify _) fun _ => .of_on_part (Registry.note_fails_as _)
  · exact .of_pure _

theorem refresh_fails_as {faults : Fault → Prop} (ends : graph.ScopesEnd) {source : Id} {via : Via}
    {target : Node} (found : graph.node? target.id = some target) :
    (refresh graph source via target).FailsAs faults := by
  unfold refresh
  refine .of_bind .of_get fun walk => ?_
  dsimp only
  split
  · split
    · exact .of_bind (locate_fails_as ends found) fun located => .of_modify _
    · exact .of_pure _
  · unfold postpone
    refine .of_bind (.of_on_part (Registry.note_fails_as _)) fun _ => ?_
    split
    · exact .of_pure _
    · exact .of_bind (.of_modify _) fun _ => .of_modify _
  · exact .of_pure _

theorem target_of_stops {source : Id} {dependency : Dependency} {fault : Fault}
    (refused : targetOf graph source dependency = .error fault) : Stops fault := by
  unfold targetOf at refused
  split at refused
  · cases refused
    exact .missing _ _ _
  · split at refused
    · cases refused
    · split at refused
      · cases refused
      · cases refused
        exact .wrongKind _ _ _ _ _

theorem follow_fails_as (ends : graph.ScopesEnd) {visit : Id → Step Walk Unit}
    (visits : ∀ id, (visit id).FailsAs Stops) (source : Id) (dependency : Dependency) :
    (follow graph visit source dependency).FailsAs Stops := by
  unfold follow
  refine .of_check (fun fault refused => target_of_stops refused) fun target passed => ?_
  have found := (target_of_ok passed).1
  rw [← Graph.id_of_node? found] at found
  have mentions : (mention target).FailsAs Stops := by
    unfold mention
    refine .of_bind .of_get fun walk => ?_
    split
    · exact .of_modify _
    · exact .of_pure _
  refine .of_bind mentions fun _ => .of_bind (visits target.id) fun _ => ?_
  exact .of_bind (refresh_fails_as ends found) fun _ => .of_modify _

theorem visit_from_fails_as (ends : graph.ScopesEnd) (bound : Nat) (id : Id) :
    (visitFrom graph bound id).FailsAs Stops := by
  induction bound generalizing id with
  | zero => exact .of_pure _
  | succ bound induction =>
      unfold visitFrom visitWith
      refine .of_bind .of_get fun walk => ?_
      split
      · exact .of_pure _
      · split
        · exact .of_fail (.missing _ _ _)
        · rename_i node found
          have same := Graph.id_of_node? found
          subst same
          have enters : (enter graph node.id).FailsAs Stops := by
            refine .of_bind (.of_modify _) fun _ => .of_bind (.of_modify _) fun _ => ?_
            exact .of_bind (.of_on_part (Registry.register_fails_as ends found)) fun _ => .of_pure _
          refine .of_bind enters fun _ => .of_bind (.of_forM fun dependency _ => ?_) fun _ => ?_
          · exact follow_fails_as ends induction node.id dependency
          · exact .of_bind (.of_modify _) fun _ => settle_fails_as ends found

theorem visit_root_fails_as (ends : graph.ScopesEnd) (root : Id) :
    (visitRoot graph root).FailsAs Stops := by
  unfold visitRoot
  split
  · exact .of_fail (.missing _ _ _)
  · exact visit_from_fails_as ends _ root

/-- A walk fails in a visit, or at its end because references are pending. -/
theorem run_error (ends : graph.ScopesEnd) {given : List Id} {before after : Walk} {fault : Fault}
    (failed : (run graph given).outcome before = (.error fault, after)) :
    Stops fault ∨ (given.forM (visitRoot graph)).Returns before () after ∧
      after.pendingTargets ≠ [] ∧ fault = Cause.pendingReference after.pendingTargets := by
  have visits : (given.forM (visitRoot graph)).FailsAs Stops :=
    .of_forM fun root _ => visit_root_fails_as ends root
  have early := visits before
  unfold run at failed
  rw [Step.outcome_bind] at failed
  unfold Step.Returns
  rcases reached : (given.forM (visitRoot graph)).outcome before with ⟨result, visited⟩
  rw [reached] at early failed
  cases result with
  | error other =>
      cases failed
      exact .inl (early fault trivial rfl)
  | ok value =>
      simp only [Step.outcome_bind, Step.outcome_get] at failed
      split at failed
      · cases failed
      · rename_i left
        cases failed
        exact .inr ⟨rfl, left, rfl⟩

end Walk

end SchemaStubs
