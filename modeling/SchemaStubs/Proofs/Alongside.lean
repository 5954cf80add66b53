import SchemaStubs.Proofs.Step

/-!
Two runs side by side. Nothing is said of a step that fails; where two steps both succeed from related
states, they give one value and end in related states again. Each way of putting steps together has a
rule, so two runs are compared by going through their parts once.
-/

namespace SchemaStubs.Step

variable {σ τ α β : Type}

/-- From related states the two steps, if both succeed, give the same value and end in related states. -/
def Alongside (related : σ → τ → Prop) (one : Step σ α) (two : Step τ α) : Prop :=
  ∀ before value after before' value' after', related before before' →
    one.Returns before value after → two.Returns before' value' after' →
      value = value' ∧ related after after'

namespace Alongside

variable {related : σ → τ → Prop}

theorem of_pure (value : α) :
    (pure value : Step σ α).Alongside related (pure value : Step τ α) := by
  intro before _ _ before' _ _ start here there
  obtain ⟨rfl, rfl⟩ := Returns.pure_iff.mp here
  obtain ⟨rfl, rfl⟩ := Returns.pure_iff.mp there
  exact ⟨rfl, start⟩

theorem of_fail (fault : Fault) (two : Step τ α) : (fail fault : Step σ α).Alongside related two :=
  fun _ _ _ _ _ _ _ here _ => (Returns.fail_iff.mp here).elim

theorem of_fail_right (one : Step σ α) (fault : Fault) :
    one.Alongside related (fail fault : Step τ α) :=
  fun _ _ _ _ _ _ _ _ there => (Returns.fail_iff.mp there).elim

theorem of_of_except (result : Except Fault α) :
    (ofExcept result : Step σ α).Alongside related (ofExcept result : Step τ α) := by
  intro before _ _ before' _ _ start here there
  obtain ⟨given, rfl⟩ := Returns.of_except_iff.mp here
  obtain ⟨again, rfl⟩ := Returns.of_except_iff.mp there
  rw [given] at again
  exact ⟨Except.ok.inj again, start⟩

theorem of_modify {change : σ → σ} {change' : τ → τ}
    (each : ∀ state state', related state state' → related (change state) (change' state')) :
    (modify change : Step σ PUnit).Alongside related (modify change' : Step τ PUnit) := by
  intro before _ _ before' _ _ start here there
  cases Returns.modify_iff.mp here
  cases Returns.modify_iff.mp there
  exact ⟨rfl, each _ _ start⟩

theorem of_set {next : σ} {next' : τ} (holds : related next next') :
    (set next : Step σ PUnit).Alongside related (set next' : Step τ PUnit) := by
  intro before _ _ before' _ _ _ here there
  cases Returns.set_iff.mp here
  cases Returns.set_iff.mp there
  exact ⟨rfl, holds⟩

theorem of_bind_returns {one : Step σ α} {two : Step τ α} {next : α → Step σ β}
    {next' : α → Step τ β} (first : one.Alongside related two)
    (second : ∀ value before after before' after', one.Returns before value after →
      two.Returns before' value after' → (next value).Alongside related (next' value)) :
    (one >>= next).Alongside related (two >>= next') := by
  intro before result after before' result' after' start here there
  obtain ⟨value, middle, ofOne, later⟩ := Returns.bind_iff.mp here
  obtain ⟨_, middle', ofTwo, later'⟩ := Returns.bind_iff.mp there
  obtain ⟨rfl, reached⟩ := first _ _ _ _ _ _ start ofOne ofTwo
  exact second value _ _ _ _ ofOne ofTwo _ _ _ _ _ _ reached later later'

theorem of_bind {one : Step σ α} {two : Step τ α} {next : α → Step σ β} {next' : α → Step τ β}
    (first : one.Alongside related two)
    (second : ∀ value, (next value).Alongside related (next' value)) :
    (one >>= next).Alongside related (two >>= next') :=
  of_bind_returns first fun value _ _ _ _ _ _ => second value

theorem of_get_bind {next : σ → Step σ β} {next' : τ → Step τ β}
    (rest : ∀ state state', related state state' → (next state).Alongside related (next' state')) :
    (get >>= next).Alongside related (get >>= next') := by
  intro before result after before' result' after' start here there
  obtain ⟨_, _, looks, later⟩ := Returns.bind_iff.mp here
  obtain ⟨_, _, looks', later'⟩ := Returns.bind_iff.mp there
  obtain ⟨rfl, rfl⟩ := Returns.get_iff.mp looks
  obtain ⟨rfl, rfl⟩ := Returns.get_iff.mp looks'
  exact rest _ _ start _ _ _ _ _ _ start later later'

theorem of_ite {condition : Prop} [Decidable condition] {one two : Step σ α} {one' two' : Step τ α}
    (first : one.Alongside related one') (second : two.Alongside related two') :
    (if condition then one else two).Alongside related (if condition then one' else two') := by
  split
  · exact first
  · exact second

theorem of_ite_bind {condition : Prop} [Decidable condition] {one two : Step σ α}
    {one' two' : Step τ α} {next : α → Step σ β} {next' : α → Step τ β}
    (first : one.Alongside related one') (second : two.Alongside related two')
    (rest : ∀ value, (next value).Alongside related (next' value)) :
    (if condition then one >>= next else two >>= next).Alongside related
      (if condition then one' >>= next' else two' >>= next') :=
  of_ite (of_bind first rest) (of_bind second rest)

theorem of_mapM {items : List α} {body : α → Step σ β} {body' : α → Step τ β}
    (each : ∀ item ∈ items, (body item).Alongside related (body' item)) :
    (items.mapM body).Alongside related (items.mapM body') := by
  induction items with
  | nil =>
      rw [List.mapM_nil, List.mapM_nil]
      exact of_pure []
  | cons item items induction =>
      rw [List.mapM_cons, List.mapM_cons]
      refine of_bind (each item List.mem_cons_self) fun value => ?_
      refine of_bind (induction fun other member => each other (List.mem_cons_of_mem _ member))
        fun values => ?_
      exact of_pure (value :: values)

theorem of_forM {items : List α} {body : α → Step σ PUnit} {body' : α → Step τ PUnit}
    (each : ∀ item ∈ items, (body item).Alongside related (body' item)) :
    (items.forM body).Alongside related (items.forM body') := by
  induction items with
  | nil => exact of_pure PUnit.unit
  | cons item items induction =>
      rw [forM_cons, forM_cons]
      refine of_bind (each item List.mem_cons_self) fun _ => ?_
      exact induction fun other member => each other (List.mem_cons_of_mem _ member)

theorem of_in_context {one : Step σ α} {two : Step τ α} (steps : one.Alongside related two)
    (context context' : String) :
    (one.inContext context).Alongside related (two.inContext context') :=
  fun _ _ _ _ _ _ start here there =>
    steps _ _ _ _ _ _ start (Returns.in_context_iff.mp here) (Returns.in_context_iff.mp there)

end Alongside

end SchemaStubs.Step
