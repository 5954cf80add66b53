import Mathlib.Data.List.Induction
import SchemaStubs.Proofs.Naming.Assignment

/-!
Histories of a registry: any operations in any order, failing or not. An operation that needs
aliases makes the registry give them out; what that leaves behind is the same whichever operation
it was.
-/

namespace SchemaStubs.Registry

inductive Operation where
  | register (id : Id)
  | reserve (file : Id) (name : String) (owner : Id)
  | request (wish : Request)
  | resolve
  | getAlias (subject : Subject) (role : Role)
  | getAliases (subject : Subject)
  | isClaimed (file : Id) (name : String)
  | markReferenced (id : Id)
  | markDeclared (id : Id)

namespace Operation

/-- The registry an operation leaves behind, whether it fails or not. -/
def effect (graph : Graph) (operation : Operation) (registry : Registry) : Registry :=
  match operation with
  | .register id => ((Registry.register graph id).outcome registry).2
  | .reserve file name owner => ((Registry.reserve file name owner).outcome registry).2
  | .request wish => ((Registry.request wish).outcome registry).2
  | .resolve => (Registry.resolve.outcome registry).2
  | .getAlias subject role => ((Registry.getAlias subject role).outcome registry).2
  | .getAliases subject => ((Registry.getAliases subject).outcome registry).2
  | .isClaimed file name => ((Registry.isClaimed file name).outcome registry).2
  | .markReferenced id => ((Registry.markReferenced id).outcome registry).2
  | .markDeclared id => ((Registry.markDeclared id).outcome registry).2

def resolves : Operation → Bool
  | .resolve | .getAlias .. | .getAliases _ | .isClaimed .. => true
  | _ => false

end Operation

/-- The registry after a history of operations on an empty one. -/
def after (graph : Graph) (history : List Operation) : Registry :=
  history.foldl (fun registry operation => operation.effect graph registry) {}

theorem after_append_singleton (graph : Graph) (history : List Operation) (operation : Operation) :
    after graph (history ++ [operation]) = operation.effect graph (after graph history) := by
  simp [after]

/-- What holds of the empty registry and outlives each operation holds after every history. -/
theorem after_invariant {graph : Graph} (invariant : Registry → Prop) (start : invariant {})
    (each : ∀ (operation : Operation) registry, invariant registry →
      invariant (operation.effect graph registry))
    (history : List Operation) : invariant (after graph history) := by
  induction history using List.reverseRecOn with
  | nil => exact start
  | append_singleton history operation induction =>
      rw [after_append_singleton]
      exact each operation _ induction

/-- What holds at some point of a history and outlives each operation still holds at its end. -/
theorem after_append_invariant {graph : Graph} (invariant : Registry → Prop)
    (each : ∀ (operation : Operation) registry, invariant registry →
      invariant (operation.effect graph registry))
    (earlier later : List Operation) (start : invariant (after graph earlier)) :
    invariant (after graph (earlier ++ later)) := by
  induction later using List.reverseRecOn with
  | nil => rwa [List.append_nil]
  | append_singleton later operation induction =>
      rw [← List.append_assoc, after_append_singleton]
      exact each operation _ induction

section Frame

variable {graph : Graph} (invariant : Registry → Prop)

theorem note_keeps (event : Journal.Event)
    (each : ∀ registry journal, invariant registry → invariant { registry with journal }) :
    (note event).Keeps invariant :=
  .of_modify fun registry => each registry _

theorem record_keeps (node : Node) (internal : String)
    (each : ∀ registry internal journal, invariant registry →
      invariant { registry with internal, journal }) :
    (record node internal).Keeps invariant := by
  refine .of_bind (.of_modify fun registry => each registry _ registry.journal) fun _ => ?_
  refine .of_bind (note_keeps _ _ fun registry => each registry registry.internal) fun _ => ?_
  exact .of_pure _

theorem claim_segment_keeps (node : Node) (segment : String)
    (each : ∀ registry segments, invariant registry → invariant { registry with segments }) :
    (claimSegment node segment).Keeps invariant := by
  intro registry start
  simp only [claimSegment, Step.outcome_bind, Step.outcome_get]
  split
  · split
    · exact start
    · exact start
  · exact each registry _ start

/-- Registering is nothing but recording identifiers and claiming class names. -/
theorem register_from_keeps_parts
    (recorded : ∀ node internal, (record node internal).Keeps invariant)
    (claimed : ∀ node segment, (claimSegment node segment).Keeps invariant) (bound : Nat)
    (id : Id) : (registerFrom graph bound id).Keeps invariant := by
  induction bound generalizing id with
  | zero => exact .of_fail _
  | succ bound induction =>
      unfold registerFrom
      refine .of_bind .of_get fun registry => ?_
      split
      · exact .of_pure _
      · split
        · exact .of_fail _
        · split
          · exact recorded _ _
          · split
            · exact .of_bind (induction _) fun parent => recorded _ _
            · refine .of_bind (claimed _ _) fun _ => ?_
              split
              · exact .of_fail _
              · split
                · exact recorded _ _
                · exact .of_bind (induction _) fun parent => recorded _ _

/-- It touches identifiers, class names and the journal, and nothing that decides aliases. -/
theorem register_from_keeps
    (blind : ∀ registry internal segments journal, invariant registry →
      invariant { registry with internal, segments, journal }) (bound : Nat) (id : Id) :
    (registerFrom graph bound id).Keeps invariant := by
  refine register_from_keeps_parts invariant (fun node internal => ?_) (fun node segment => ?_) _ _
  · exact record_keeps _ node internal fun registry internal journal =>
      blind registry internal registry.segments journal
  · exact claim_segment_keeps _ node segment fun registry segments =>
      blind registry registry.internal segments registry.journal

end Frame

theorem resolve_of_resolved {registry : Registry} (done : registry.resolved = true) :
    resolve.outcome registry = (.ok (), registry) := by
  simp [resolve, Step.outcome_bind, done]

/-- The first resolution serves the whole queue; one that fails stays where it stopped. -/
theorem resolve_of_unresolved {registry : Registry} (fresh : registry.resolved = false) :
    resolve.outcome registry =
      (do
        registry.queue.forM assign
        let reached ← get
        note (.aliasesResolved reached.assignedSubjects.length) : Step Registry Unit).outcome
        { registry with resolved := true } := by
  simp only [resolve, Step.outcome_bind, Step.outcome_get, fresh, Bool.false_eq_true, if_false,
    Step.outcome_set]

theorem resolve_keeps {invariant : Registry → Prop}
    (blind : ∀ registry resolved journal, invariant registry →
      invariant { registry with resolved, journal })
    (assigned : ∀ wish, (assign wish).Keeps invariant) : resolve.Keeps invariant := by
  intro registry start
  by_cases done : registry.resolved = true
  · rw [resolve_of_resolved done]
    exact start
  · rw [resolve_of_unresolved (by simpa using done)]
    have noted : ∀ event, (note event).Keeps invariant := fun event =>
      note_keeps _ event fun registry journal => blind registry registry.resolved journal
    have served : (registry.queue.forM assign).Keeps invariant := .of_forM fun wish _ => assigned wish
    apply served.of_bind fun _ => .of_bind .of_get fun reached => noted _
    exact blind registry true registry.journal start

theorem get_aliases_state (subject : Subject) (registry : Registry) :
    ((getAliases subject).outcome registry).2 = (resolve.outcome registry).2 := by
  simp only [getAliases, Step.outcome_bind]
  rcases resolve.outcome registry with ⟨result, reached⟩
  cases result with
  | error fault => rfl
  | ok value =>
      simp only [Step.outcome_get]
      split <;> rfl

theorem get_alias_state (subject : Subject) (role : Role) (registry : Registry) :
    ((getAlias subject role).outcome registry).2 = (resolve.outcome registry).2 := by
  rw [← get_aliases_state subject]
  simp only [getAlias, Step.outcome_bind]
  rcases (getAliases subject).outcome registry with ⟨result, reached⟩
  cases result with
  | error fault => rfl
  | ok names =>
      simp only []
      split <;> rfl

theorem is_claimed_state (file : Id) (name : String) (registry : Registry) :
    ((isClaimed file name).outcome registry).2 = (resolve.outcome registry).2 := by
  unfold isClaimed
  rw [Step.outcome_function]
  rcases resolve.outcome registry with ⟨result, reached⟩
  cases result <;> rfl

/-- An operation that needs aliases leaves behind what resolving leaves behind. -/
theorem effect_of_resolves {operation : Operation} (graph : Graph) (registry : Registry)
    (resolving : operation.resolves = true) :
    operation.effect graph registry = (resolve.outcome registry).2 := by
  cases operation with
  | resolve => rfl
  | getAlias subject role => exact get_alias_state subject role registry
  | getAliases subject => exact get_aliases_state subject registry
  | isClaimed file name => exact is_claimed_state file name registry
  | register | reserve | request | markReferenced | markDeclared => cases resolving

/-- A request that is taken is new, has a role, and comes before the resolution. -/
theorem request_cases (wish : Request) (registry : Registry) :
    ((request wish).outcome registry).2 = registry ∨
      (registry.resolved = false ∧ wish.targets ≠ [] ∧
        wish.subject ∉ registry.requests.map Request.subject ∧
        (request wish).Returns registry ()
          { registry with requests := registry.requests ++ [wish] }) := by
  unfold Step.Returns
  simp only [request, Step.outcome_bind, Step.outcome_get]
  by_cases done : registry.resolved = true
  · exact Or.inl (by simp [done])
  · by_cases empty : wish.targets.isEmpty = true
    · exact Or.inl (by simp [done, empty])
    · by_cases repeated : (registry.requests.any fun other => other.subject == wish.subject) = true
      · exact Or.inl (by simp [done, empty, repeated])
      · refine Or.inr ⟨by simpa using done, by simpa using empty, ?_, by simp [done, empty, repeated]⟩
        intro member
        obtain ⟨other, found, same⟩ := List.mem_map.mp member
        exact repeated (List.any_eq_true.mpr ⟨other, found, by simp [same]⟩)

theorem reserve_outcome (file : Id) (name : String) (owner : Id) (registry : Registry) :
    (reserve file name owner).outcome registry =
      (.ok (), if registry.reserved.contains (file, name) then registry
        else { registry with reserved := registry.reserved.set (file, name) owner }) :=
  rfl

theorem reserve_contains (file : Id) (name : String) (owner : Id) (registry : Registry)
    (key : Id × String) :
    ((reserve file name owner).outcome registry).2.reserved.contains key =
      (registry.reserved.contains key || key == (file, name)) := by
  rw [reserve_outcome]
  by_cases held : registry.reserved.contains (file, name) = true
  · rw [if_pos held]
    by_cases same : key = (file, name)
    · simp [held, same]
    · simp [same]
  · rw [if_neg held]
    by_cases same : key = (file, name)
    · simp [same, Table.contains]
    · simp [same, Table.contains]

end SchemaStubs.Registry
