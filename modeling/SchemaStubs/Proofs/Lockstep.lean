import SchemaStubs.Proofs.Step

/-!
Two steps in lockstep. From related states both succeed, with values of which one is the image of the
other, and end in related states, or both fail; nothing is said of how they fail. Each way of putting
steps together keeps them in lockstep, so two runs over like data are compared part by part.
-/

namespace SchemaStubs

/-- Two results in lockstep: the second is the image of the first, or both are faults. -/
inductive Alike {α β : Type} (image : α → β) : Except Fault α → Except Fault β → Prop where
  | ok (value : α) : Alike image (.ok value) (.ok (image value))
  | error (fault fault' : Fault) : Alike image (.error fault) (.error fault')

namespace Alike

variable {α β γ δ : Type} {image : α → β}

theorem of_ok {value : α} {value' : β} (same : value' = image value) :
    Alike image (.ok value) (.ok value') :=
  same ▸ ok value

theorem toOption {one : Except Fault α} {two : Except Fault β} (alike : Alike image one two) :
    two.toOption = one.toOption.map image := by
  cases alike <;> rfl

theorem eq_ok {one : Except Fault α} {two : Except Fault β} (alike : Alike image one two) {value : α}
    (passed : one = .ok value) : two = .ok (image value) := by
  cases alike with
  | ok other => rw [Except.ok.inj passed]
  | error fault fault' => cases passed

theorem of_bind {one : Except Fault α} {two : Except Fault β} {next : α → Except Fault γ}
    {next' : β → Except Fault δ} {last : γ → δ} (first : Alike image one two)
    (second : ∀ value, one = .ok value → Alike last (next value) (next' (image value))) :
    Alike last (one >>= next) (two >>= next') := by
  cases first with
  | ok value => exact second value rfl
  | error fault fault' => exact error fault fault'

theorem of_ite {condition condition' : Prop} [Decidable condition] [Decidable condition']
    {one two : Except Fault α} {one' two' : Except Fault β} (same : condition' ↔ condition)
    (first : condition → Alike image one one') (second : ¬condition → Alike image two two') :
    Alike image (if condition then one else two) (if condition' then one' else two') := by
  by_cases holds : condition
  · rw [if_pos holds, if_pos (same.mpr holds)]
    exact first holds
  · rw [if_neg holds, if_neg fun other => holds (same.mp other)]
    exact second holds

theorem of_forM {items : List γ} {other : γ → δ} {check : γ → Except Fault Unit}
    {check' : δ → Except Fault Unit} (each : ∀ item ∈ items, Alike id (check item) (check' (other item))) :
    Alike id (items.forM check) ((items.map other).forM check') := by
  induction items with
  | nil => exact ok ()
  | cons item items induction =>
      refine of_bind (each item List.mem_cons_self) fun _ _ => ?_
      exact induction fun next member => each next (List.mem_cons_of_mem _ member)

theorem of_forM_same {items : List γ} {check check' : γ → Except Fault Unit}
    (each : ∀ item ∈ items, Alike id (check item) (check' item)) :
    Alike id (items.forM check) (items.forM check') := by
  have checks := of_forM (fun item member => each item member)
  rwa [List.map_id'] at checks

theorem of_mapM {items : List γ} {other : γ → δ} {make : γ → Except Fault α}
    {make' : δ → Except Fault β} (each : ∀ item ∈ items, Alike image (make item) (make' (other item))) :
    Alike (List.map image) (items.mapM make) ((items.map other).mapM make') := by
  induction items with
  | nil => exact ok []
  | cons item items induction =>
      rw [List.map_cons, List.mapM_cons, List.mapM_cons]
      refine of_bind (each item List.mem_cons_self) fun value _ => ?_
      refine of_bind (induction fun next member => each next (List.mem_cons_of_mem _ member))
        fun values _ => ok (value :: values)

end Alike

namespace Step

variable {σ τ α β γ δ : Type}

def Fails (step : Step σ α) (state : σ) : Prop :=
  ∃ fault after, step.outcome state = (.error fault, after)

theorem Fails.bind {step : Step σ α} {state : σ} (fails : step.Fails state) (next : α → Step σ β) :
    (step >>= next).Fails state := by
  obtain ⟨fault, after, failed⟩ := fails
  exact ⟨fault, after, by rw [outcome_bind, failed]⟩

theorem Returns.fails_bind {step : Step σ α} {next : α → Step σ β} {state after : σ} {value : α}
    (returns : step.Returns state value after) (fails : (next value).Fails after) :
    (step >>= next).Fails state := by
  obtain ⟨fault, last, failed⟩ := fails
  refine ⟨fault, last, ?_⟩
  rw [outcome_bind, returns]
  exact failed

/-- From related states either both steps succeed, the second with the image of what the first gives,
and end in related states, or both fail. -/
def Lockstep (related : σ → τ → Prop) (image : α → β) (one : Step σ α) (two : Step τ β) : Prop :=
  ∀ state state', related state state' →
    (∃ value after after', one.Returns state value after ∧
      two.Returns state' (image value) after' ∧ related after after') ∨
    (one.Fails state ∧ two.Fails state')

namespace Lockstep

variable {related : σ → τ → Prop} {image : α → β}

theorem of_pure {value : α} {value' : β} (same : value' = image value) :
    (pure value : Step σ α).Lockstep related image (pure value' : Step τ β) := by
  intro state state' start
  subst same
  exact .inl ⟨value, state, state', rfl, rfl, start⟩

theorem of_fail (fault fault' : Fault) :
    (fail fault : Step σ α).Lockstep related image (fail fault' : Step τ β) :=
  fun state state' _ => .inr ⟨⟨fault, state, rfl⟩, ⟨fault', state', rfl⟩⟩

theorem of_of_except {one : Except Fault α} {two : Except Fault β} (alike : Alike image one two) :
    (ofExcept one : Step σ α).Lockstep related image (ofExcept two : Step τ β) := by
  cases alike with
  | ok value => exact of_pure rfl
  | error fault fault' => exact of_fail fault fault'

theorem of_modify {change : σ → σ} {change' : τ → τ}
    (each : ∀ state state', related state state' → related (change state) (change' state')) :
    (modify change : Step σ PUnit).Lockstep related id (modify change' : Step τ PUnit) :=
  fun state state' start => .inl ⟨⟨⟩, change state, change' state', rfl, rfl, each _ _ start⟩

theorem of_set {next : σ} {next' : τ} (holds : related next next') :
    (set next : Step σ PUnit).Lockstep related id (set next' : Step τ PUnit) :=
  fun _ _ _ => .inl ⟨⟨⟩, next, next', rfl, rfl, holds⟩

theorem of_bind {one : Step σ α} {two : Step τ β} {next : α → Step σ γ} {next' : β → Step τ δ}
    {last : γ → δ} (first : one.Lockstep related image two)
    (second : ∀ value, (next value).Lockstep related last (next' (image value))) :
    (one >>= next).Lockstep related last (two >>= next') := by
  intro state state' start
  rcases first state state' start with ⟨value, middle, middle', here, there, reached⟩ | ⟨here, there⟩
  · rcases second value middle middle' reached with
      ⟨result, after, after', later, later', ends⟩ | ⟨later, later'⟩
    · exact .inl ⟨result, after, after', Returns.bind_iff.mpr ⟨_, _, here, later⟩,
        Returns.bind_iff.mpr ⟨_, _, there, later'⟩, ends⟩
    · exact .inr ⟨here.fails_bind later, there.fails_bind later'⟩
  · exact .inr ⟨here.bind next, there.bind next'⟩

theorem of_get_bind {next : σ → Step σ α} {next' : τ → Step τ β}
    (rest : ∀ state state', related state state' →
      (next state).Lockstep related image (next' state')) :
    (get >>= next).Lockstep related image (get >>= next') := by
  intro state state' start
  rcases rest state state' start state state' start with
    ⟨value, after, after', here, there, ends⟩ | ⟨⟨fault, after, here⟩, ⟨fault', after', there⟩⟩
  · exact .inl ⟨value, after, after', Returns.bind_iff.mpr ⟨_, _, rfl, here⟩,
      Returns.bind_iff.mpr ⟨_, _, rfl, there⟩, ends⟩
  · exact .inr ⟨(Returns.get_iff.mpr ⟨rfl, rfl⟩).fails_bind ⟨fault, after, here⟩,
      (Returns.get_iff.mpr ⟨rfl, rfl⟩).fails_bind ⟨fault', after', there⟩⟩

theorem of_ite {condition condition' : Prop} [Decidable condition] [Decidable condition']
    {one two : Step σ α} {one' two' : Step τ β} (same : condition' ↔ condition)
    (first : condition → one.Lockstep related image one')
    (second : ¬condition → two.Lockstep related image two') :
    (if condition then one else two).Lockstep related image
      (if condition' then one' else two') := by
  by_cases holds : condition
  · rw [if_pos holds, if_pos (same.mpr holds)]
    exact first holds
  · rw [if_neg holds, if_neg fun other => holds (same.mp other)]
    exact second holds

theorem of_ite_bind {condition condition' : Prop} [Decidable condition] [Decidable condition']
    {one two : Step σ α} {one' two' : Step τ β} {next : α → Step σ γ} {next' : β → Step τ δ}
    {last : γ → δ} (same : condition' ↔ condition)
    (first : condition → one.Lockstep related image one')
    (second : ¬condition → two.Lockstep related image two')
    (rest : ∀ value, (next value).Lockstep related last (next' (image value))) :
    (if condition then one >>= next else two >>= next).Lockstep related last
      (if condition' then one' >>= next' else two' >>= next') :=
  of_ite same (fun holds => of_bind (first holds) rest) fun fails => of_bind (second fails) rest

theorem of_forM {items : List γ} {other : γ → δ} {body : γ → Step σ PUnit} {body' : δ → Step τ PUnit}
    (each : ∀ item ∈ items, (body item).Lockstep related id (body' (other item))) :
    (items.forM body).Lockstep related id ((items.map other).forM body') := by
  induction items with
  | nil => exact of_pure rfl
  | cons item items induction =>
      rw [List.map_cons, forM_cons, forM_cons]
      refine of_bind (each item List.mem_cons_self) fun _ => ?_
      exact induction fun next member => each next (List.mem_cons_of_mem _ member)

theorem of_forM_same {items : List γ} {body : γ → Step σ PUnit} {body' : γ → Step τ PUnit}
    (each : ∀ item ∈ items, (body item).Lockstep related id (body' item)) :
    (items.forM body).Lockstep related id (items.forM body') := by
  have steps := of_forM (fun item member => each item member)
  rwa [List.map_id'] at steps

theorem of_mapM {items : List γ} {other : γ → δ} {body : γ → Step σ α} {body' : δ → Step τ β}
    (each : ∀ item ∈ items, (body item).Lockstep related image (body' (other item))) :
    (items.mapM body).Lockstep related (List.map image) ((items.map other).mapM body') := by
  induction items with
  | nil =>
      rw [List.map_nil, List.mapM_nil, List.mapM_nil]
      exact of_pure rfl
  | cons item items induction =>
      rw [List.map_cons, List.mapM_cons, List.mapM_cons]
      refine of_bind (each item List.mem_cons_self) fun value => ?_
      refine of_bind (induction fun next member => each next (List.mem_cons_of_mem _ member))
        fun values => of_pure rfl

theorem of_mapM_id {items : List γ} {other : γ → δ} {body : γ → Step σ α} {body' : δ → Step τ α}
    (each : ∀ item ∈ items, (body item).Lockstep related id (body' (other item))) :
    (items.mapM body).Lockstep related id ((items.map other).mapM body') := by
  have steps := of_mapM each
  rwa [List.map_id_fun] at steps

theorem of_foldlM {items : List γ} {other : γ → δ} {body : α → γ → Step σ α}
    {body' : β → δ → Step τ β}
    (each : ∀ item ∈ items, ∀ value,
      (body value item).Lockstep related image (body' (image value) (other item))) (start : α) :
    (items.foldlM body start).Lockstep related image
      ((items.map other).foldlM body' (image start)) := by
  induction items generalizing start with
  | nil => exact of_pure rfl
  | cons item items induction =>
      rw [List.map_cons, List.foldlM_cons, List.foldlM_cons]
      refine of_bind (each item List.mem_cons_self start) fun value => ?_
      exact induction (fun next member => each next (List.mem_cons_of_mem _ member)) value

theorem of_on_part {σ' τ' : Type} {inner : σ' → τ' → Prop} {part : σ → σ'} {part' : τ → τ'}
    {replace : σ' → σ → σ} {replace' : τ' → τ → τ} {one : Step σ' α} {two : Step τ' β}
    (steps : one.Lockstep inner image two)
    (inside : ∀ state state', related state state' → inner (part state) (part' state'))
    (back : ∀ state state' reached reached', related state state' → inner reached reached' →
      related (replace reached state) (replace' reached' state')) :
    (one.onPart part replace).Lockstep related image (two.onPart part' replace') := by
  intro state state' start
  rcases steps _ _ (inside _ _ start) with
    ⟨value, after, after', here, there, ends⟩ | ⟨⟨fault, after, here⟩, ⟨fault', after', there⟩⟩
  · exact .inl ⟨value, _, _, Returns.on_part_iff.mpr ⟨_, here, rfl⟩,
      Returns.on_part_iff.mpr ⟨_, there, rfl⟩, back _ _ _ _ start ends⟩
  · exact .inr ⟨⟨fault, _, by rw [outcome_on_part, here]⟩, ⟨fault', _, by rw [outcome_on_part, there]⟩⟩

theorem of_in_context {one : Step σ α} {two : Step τ β} (steps : one.Lockstep related image two)
    (context context' : String) :
    (one.inContext context).Lockstep related image (two.inContext context') := by
  intro state state' start
  rcases steps state state' start with
    ⟨value, after, after', here, there, ends⟩ | ⟨⟨fault, after, here⟩, ⟨fault', after', there⟩⟩
  · exact .inl ⟨value, after, after', Returns.in_context_iff.mpr here,
      Returns.in_context_iff.mpr there, ends⟩
  · refine .inr ⟨⟨fault.withContext context, after, ?_⟩, ⟨fault'.withContext context', after', ?_⟩⟩
    · unfold inContext
      rw [outcome_function, here]
    · unfold inContext
      rw [outcome_function, there]

/-- Two steps over states of their own, and what follows with their results. -/
theorem of_within_bind {σ' τ' ε ζ : Type} {inner : σ' → τ' → Prop} {make : σ → σ'} {make' : τ → τ'}
    {back : σ' → σ} {back' : τ' → τ} {result : α → σ' → γ} {result' : β → τ' → δ}
    {one : Step σ' α} {two : Step τ' β} {next : γ → Step σ ε} {next' : δ → Step τ ζ} {last : ε → ζ}
    (steps : one.Lockstep inner image two)
    (inside : ∀ state state', related state state' → inner (make state) (make' state'))
    (outside : ∀ reached reached', inner reached reached' → related (back reached) (back' reached'))
    (rest : ∀ value reached reached', inner reached reached' →
      (next (result value reached)).Lockstep related last (next' (result' (image value) reached'))) :
    (one.within make back result >>= next).Lockstep related last
      (two.within make' back' result' >>= next') := by
  intro state state' start
  rcases steps _ _ (inside _ _ start) with
    ⟨value, reached, reached', here, there, ends⟩ | ⟨⟨fault, after, here⟩, ⟨fault', after', there⟩⟩
  · have first : (one.within make back result).Returns state (result value reached) (back reached) :=
      Returns.within_iff.mpr ⟨_, _, here, rfl, rfl⟩
    have first' : (two.within make' back' result').Returns state' (result' (image value) reached')
        (back' reached') := Returns.within_iff.mpr ⟨_, _, there, rfl, rfl⟩
    rcases rest value reached reached' ends _ _ (outside _ _ ends) with
      ⟨final, after, after', later, later', holds⟩ | ⟨later, later'⟩
    · exact .inl ⟨final, after, after', Returns.bind_iff.mpr ⟨_, _, first, later⟩,
        Returns.bind_iff.mpr ⟨_, _, first', later'⟩, holds⟩
    · exact .inr ⟨first.fails_bind later, first'.fails_bind later'⟩
  · refine .inr ⟨Fails.bind ⟨fault, back after, ?_⟩ next, Fails.bind ⟨fault', back' after', ?_⟩ next'⟩
    · unfold within
      rw [outcome_function, here]
    · unfold within
      rw [outcome_function, there]

end Lockstep

end Step

end SchemaStubs
