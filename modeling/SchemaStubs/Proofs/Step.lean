import Mathlib.Data.List.Forall2
import SchemaStubs.Step

/-!
Reasoning about steps. What a sequence of steps does is read off its parts in two ways: `Returns`
says that a step succeeds and where it ends, and `Keeps` says that an invariant outlives it,
whatever its outcome is. A check is a step without a state.
-/

namespace SchemaStubs

theorem except_ok_of_isOk {ε α : Type} {result : Except ε α} (passed : result.isOk = true) :
    ∃ value, result = .ok value := by
  cases result with
  | error fault => cases passed
  | ok value => exact ⟨value, rfl⟩

theorem except_bind_ok {ε α β : Type} {first : Except ε α} {next : α → Except ε β}
    {result : β} :
    (first >>= next) = .ok result ↔ ∃ value, first = .ok value ∧ next value = .ok result := by
  cases first with
  | error fault => simp [bind, Except.bind]
  | ok value => simp [bind, Except.bind]

theorem except_bind_error {α β : Type} {first : Except Fault α} {next : α → Except Fault β}
    {fault : Fault} (failed : (first >>= next) = .error fault) :
    first = .error fault ∨ ∃ value, first = .ok value ∧ next value = .error fault := by
  cases first with
  | error other =>
      cases failed
      exact .inl rfl
  | ok value => exact .inr ⟨value, rfl, failed⟩

theorem except_mapM_mem {α β : Type} {items : List α} {make : α → Except Fault β}
    {results : List β} (made : items.mapM make = .ok results) {result : β}
    (member : result ∈ results) : ∃ item ∈ items, make item = .ok result := by
  induction items generalizing results with
  | nil =>
      cases made
      cases member
  | cons item rest induction =>
      rw [List.mapM_cons, except_bind_ok] at made
      obtain ⟨first, here, made⟩ := made
      rw [except_bind_ok] at made
      obtain ⟨others, later, same⟩ := made
      cases same
      rcases List.mem_cons.mp member with rfl | inside
      · exact ⟨item, List.mem_cons_self, here⟩
      · obtain ⟨other, listed, same⟩ := induction later inside
        exact ⟨other, List.mem_cons_of_mem _ listed, same⟩

theorem except_mapM_related {α β : Type} {items : List α} {make : α → Except Fault β}
    {results : List β} (made : items.mapM make = .ok results) :
    List.Forall₂ (fun item result => make item = .ok result) items results := by
  induction items generalizing results with
  | nil =>
      cases made
      exact .nil
  | cons item rest induction =>
      rw [List.mapM_cons, except_bind_ok] at made
      obtain ⟨first, here, made⟩ := made
      rw [except_bind_ok] at made
      obtain ⟨others, later, same⟩ := made
      cases same
      exact .cons here (induction later)

theorem except_mapM_of_related {α β : Type} {items : List α} {make : α → Except Fault β}
    {results : List β}
    (related : List.Forall₂ (fun item result => make item = .ok result) items results) :
    items.mapM make = .ok results := by
  induction related with
  | nil => rfl
  | @cons item result rest results made _ induction =>
      rw [List.mapM_cons, except_bind_ok]
      refine ⟨result, made, ?_⟩
      rw [except_bind_ok]
      exact ⟨results, induction, rfl⟩

theorem except_mapM_error {α β : Type} {items : List α} {make : α → Except Fault β} {fault : Fault}
    (failed : items.mapM make = .error fault) : ∃ item ∈ items, make item = .error fault := by
  induction items with
  | nil => cases failed
  | cons item rest induction =>
      rw [List.mapM_cons] at failed
      rcases except_bind_error failed with here | ⟨_, _, failed⟩
      · exact ⟨item, List.mem_cons_self, here⟩
      · rcases except_bind_error failed with later | ⟨_, _, failed⟩
        · obtain ⟨other, listed, stops⟩ := induction later
          exact ⟨other, List.mem_cons_of_mem _ listed, stops⟩
        · cases failed

theorem except_forM_ok {α : Type} {items : List α} {check : α → Except Fault PUnit}
    {result : PUnit} (passed : items.forM check = .ok result) :
    ∀ item ∈ items, check item = .ok () := by
  induction items with
  | nil => simp
  | cons first rest induction =>
      change (check first >>= fun _ => rest.forM check) = .ok result at passed
      rw [except_bind_ok] at passed
      obtain ⟨_, here, later⟩ := passed
      intro item member
      rcases List.mem_cons.mp member with rfl | inside
      · exact here
      · exact induction later item inside

theorem except_forM_error {α : Type} {items : List α} {check : α → Except Fault Unit}
    {fault : Fault} (failed : items.forM check = .error fault) :
    ∃ item ∈ items, check item = .error fault := by
  induction items with
  | nil => cases failed
  | cons first rest induction =>
      change (check first >>= fun _ => rest.forM check) = .error fault at failed
      rcases except_bind_error failed with here | ⟨_, _, later⟩
      · exact ⟨first, List.mem_cons_self, here⟩
      · obtain ⟨item, listed, stops⟩ := induction later
        exact ⟨item, List.mem_cons_of_mem _ listed, stops⟩

theorem except_forM_of_ok {α : Type} {items : List α} {check : α → Except Fault PUnit}
    (passes : ∀ item ∈ items, check item = .ok ()) : items.forM check = .ok () := by
  induction items with
  | nil => rfl
  | cons first rest induction =>
      change (check first >>= fun _ => rest.forM check) = .ok ()
      rw [except_bind_ok]
      exact ⟨(), passes first List.mem_cons_self,
        induction fun item inside => passes item (List.mem_cons_of_mem first inside)⟩

namespace Step

variable {σ τ α β : Type}

@[simp] theorem outcome_pure (value : α) (state : σ) :
    (pure value : Step σ α).outcome state = (.ok value, state) :=
  rfl

@[simp] theorem outcome_get (state : σ) :
    (get : Step σ σ).outcome state = (.ok state, state) :=
  rfl

@[simp] theorem outcome_set (next state : σ) :
    (set next : Step σ PUnit).outcome state = (.ok ⟨⟩, next) :=
  rfl

@[simp] theorem outcome_modify (change : σ → σ) (state : σ) :
    (modify change : Step σ PUnit).outcome state = (.ok ⟨⟩, change state) :=
  rfl

@[simp] theorem outcome_fail (fault : Fault) (state : σ) :
    (fail fault : Step σ α).outcome state = (.error fault, state) :=
  rfl

@[simp] theorem outcome_of_except (result : Except Fault α) (state : σ) :
    (ofExcept result : Step σ α).outcome state = (result, state) := by
  cases result <;> rfl

theorem outcome_function (run : σ → Except Fault α × σ) (state : σ) :
    @outcome σ α run state = run state :=
  rfl

theorem outcome_on_part (part : σ → τ) (replace : τ → σ → σ) (step : Step τ α) (state : σ) :
    (step.onPart part replace).outcome state =
      ((step.outcome (part state)).1, replace (step.outcome (part state)).2 state) :=
  rfl

theorem outcome_bind (step : Step σ α) (next : α → Step σ β) (state : σ) :
    (step >>= next).outcome state =
      match step.outcome state with
      | (.ok value, reached) => (next value).outcome reached
      | (.error fault, reached) => (.error fault, reached) := by
  have unfolded : (step >>= next).outcome state =
      (ExceptT.bindCont next (step.outcome state).1).run (step.outcome state).2 := rfl
  rw [unfolded]
  rcases step.outcome state with ⟨result, reached⟩
  cases result <;> rfl

theorem forM_cons (item : α) (items : List α) (body : α → Step σ PUnit) :
    (item :: items).forM body = body item >>= fun _ => items.forM body :=
  rfl

/-- Two sequences of steps have one outcome if their first steps have, and their second steps do
from where the first one ends. -/
theorem outcome_bind_congr {step step' : Step σ α} {next next' : α → Step σ β} {state : σ}
    (first : step.outcome state = step'.outcome state)
    (rest : ∀ value middle, step'.outcome state = (.ok value, middle) →
      (next value).outcome middle = (next' value).outcome middle) :
    (step >>= next).outcome state = (step' >>= next').outcome state := by
  rw [outcome_bind, outcome_bind, first]
  rcases reached : step'.outcome state with ⟨result, middle⟩
  cases result with
  | ok value => exact rest value middle reached
  | error fault => rfl

def Returns (step : Step σ α) (before : σ) (value : α) (after : σ) : Prop :=
  step.outcome before = (.ok value, after)

namespace Returns

theorem unique {step : Step σ α} {before one two : σ} {value other : α}
    (first : step.Returns before value one) (second : step.Returns before other two) :
    value = other ∧ one = two := by
  unfold Returns at first second
  rw [first] at second
  cases second
  exact ⟨rfl, rfl⟩

theorem of_any {step : Step σ α} {before : σ} {check : α → Bool}
    (seen : (step.outcome before).1.toOption.any check = true) :
    ∃ value after, step.Returns before value after ∧ check value = true := by
  unfold Returns
  revert seen
  rcases step.outcome before with ⟨result, after⟩
  intro seen
  cases result with
  | error fault => cases seen
  | ok value => exact ⟨value, after, rfl, seen⟩

theorem bind_iff {step : Step σ α} {next : α → Step σ β} {before after : σ} {result : β} :
    (step >>= next).Returns before result after ↔
      ∃ value middle, step.Returns before value middle ∧
        (next value).Returns middle result after := by
  unfold Returns
  rw [outcome_bind]
  rcases step.outcome before with ⟨outcome, middle⟩
  cases outcome with
  | error fault => simp
  | ok value =>
      constructor
      · intro rest
        exact ⟨value, middle, rfl, rest⟩
      · rintro ⟨_, _, same, rest⟩
        cases same
        exact rest

@[simp] theorem pure_iff {value result : α} {before after : σ} :
    (pure value : Step σ α).Returns before result after ↔ value = result ∧ before = after := by
  simp [Returns]

@[simp] theorem get_iff {result before after : σ} :
    (get : Step σ σ).Returns before result after ↔ before = result ∧ before = after := by
  simp [Returns]

@[simp] theorem set_iff {next before after : σ} {result : PUnit} :
    (set next : Step σ PUnit).Returns before result after ↔ next = after := by
  simp [Returns]

@[simp] theorem modify_iff {change : σ → σ} {before after : σ} {result : PUnit} :
    (modify change : Step σ PUnit).Returns before result after ↔ change before = after := by
  simp [Returns]

@[simp] theorem fail_iff {fault : Fault} {before after : σ} {result : α} :
    (fail fault : Step σ α).Returns before result after ↔ False := by
  simp [Returns]

@[simp] theorem of_except_iff {result : Except Fault α} {before after : σ} {value : α} :
    (ofExcept result).Returns before value after ↔ result = .ok value ∧ before = after := by
  simp [Returns]

theorem on_part_iff {part : σ → τ} {replace : τ → σ → σ} {step : Step τ α} {before after : σ}
    {value : α} :
    (step.onPart part replace).Returns before value after ↔
      ∃ reached, step.Returns (part before) value reached ∧ replace reached before = after := by
  unfold Returns
  rw [outcome_on_part]
  rcases step.outcome (part before) with ⟨result, reached⟩
  constructor
  · intro same
    cases same
    exact ⟨reached, rfl, rfl⟩
  · rintro ⟨other, same, rfl⟩
    cases same
    rfl

theorem within_iff {make : τ → σ} {back : σ → τ} {result : α → σ → β} {step : Step σ α}
    {before after : τ} {value : β} :
    (step.within make back result).Returns before value after ↔
      ∃ inner reached, step.Returns (make before) inner reached ∧
        result inner reached = value ∧ back reached = after := by
  unfold Returns within
  rw [outcome_function]
  rcases step.outcome (make before) with ⟨ending, reached⟩
  cases ending with
  | error fault => simp
  | ok inner =>
      constructor
      · intro same
        cases same
        exact ⟨inner, reached, rfl, rfl, rfl⟩
      · rintro ⟨_, _, same, rfl, rfl⟩
        cases same
        rfl

theorem in_context_iff {step : Step σ α} {context : String} {before after : σ} {value : α} :
    (step.inContext context).Returns before value after ↔ step.Returns before value after := by
  unfold Returns inContext
  rw [outcome_function]
  rcases step.outcome before with ⟨result, reached⟩
  cases result <;> simp

/-- A loop that succeeds goes through its stages: each step brings the items done so far one item
further. -/
theorem forM_stages {items : List α} {body : α → Step σ PUnit} (stage : List α → σ → Prop)
    (each : ∀ done item rest, done ++ item :: rest = items → ∀ before result after,
      (body item).Returns before result after → stage done before → stage (done ++ [item]) after)
    {before after : σ} {result : PUnit}
    (returns : (items.forM body).Returns before result after) (start : stage [] before) :
    stage items after := by
  suffices from_done : ∀ done rest, done ++ rest = items → ∀ middle,
      (rest.forM body).Returns middle result after → stage done middle → stage items after by
    exact from_done [] items rfl before returns start
  intro done rest whole middle later reached
  induction rest generalizing done middle with
  | nil =>
      have same := (pure_iff.mp later).2
      rw [List.append_nil] at whole
      exact whole ▸ same ▸ reached
  | cons item rest induction =>
      rw [forM_cons, bind_iff] at later
      obtain ⟨_, next, first, last⟩ := later
      apply induction (done ++ [item]) (by simp [← whole]) next last
      exact each done item rest whole middle _ next first reached

theorem mapM_stages {items : List α} {body : α → Step σ β} (stage : List α → List β → σ → Prop)
    (each : ∀ done item rest, done ++ item :: rest = items → ∀ values value before after,
      (body item).Returns before value after → stage done values before →
      stage (done ++ [item]) (values ++ [value]) after)
    {results : List β} {before after : σ}
    (returns : (items.mapM body).Returns before results after) (start : stage [] [] before) :
    stage items results after := by
  suffices from_done : ∀ done rest, done ++ rest = items → ∀ values others middle,
      (rest.mapM body).Returns middle others after → stage done values middle →
      stage items (values ++ others) after by
    simpa using from_done [] items rfl [] results before returns start
  intro done rest whole values others middle later reached
  induction rest generalizing done values others middle with
  | nil =>
      rw [List.mapM_nil] at later
      obtain ⟨rfl, rfl⟩ := pure_iff.mp later
      rw [List.append_nil] at whole ⊢
      exact whole ▸ reached
  | cons item rest induction =>
      rw [List.mapM_cons, bind_iff] at later
      obtain ⟨value, next, first, later⟩ := later
      rw [bind_iff] at later
      obtain ⟨more, last, second, ends⟩ := later
      obtain ⟨rfl, rfl⟩ := pure_iff.mp ends
      have step := each done item rest whole values value middle next first reached
      have rest := induction (done ++ [item]) (by simp [← whole]) (values ++ [value]) more next
        second step
      simpa using rest

theorem mapM_related {items : List α} {body : α → Step σ β} (related : α → β → Prop)
    (each : ∀ item ∈ items, ∀ before result after, (body item).Returns before result after →
      related item result)
    {results : List β} {before after : σ}
    (returns : (items.mapM body).Returns before results after) :
    List.Forall₂ related items results := by
  refine mapM_stages (fun done values _ => List.Forall₂ related done values) ?_ returns .nil
  intro done item rest place values value before after step earlier
  refine List.rel_append earlier (.cons ?_ .nil)
  exact each item (by simp [← place]) before value after step

theorem mapM_mem {items : List α} {body : α → Step σ β} {results : List β} {before after : σ}
    (returns : (items.mapM body).Returns before results after) {result : β}
    (member : result ∈ results) :
    ∃ item ∈ items, ∃ start reached, (body item).Returns start result reached := by
  refine mapM_stages (fun _ values _ => ∀ value ∈ values,
    ∃ item ∈ items, ∃ start reached, (body item).Returns start value reached) ?_ returns (by simp)
    result member
  intro done item rest place values value start reached step earlier other listed
  rcases List.mem_append.mp listed with before | last
  · exact earlier other before
  · cases List.mem_singleton.mp last
    exact ⟨item, by simp [← place], start, reached, step⟩

theorem foldlM_stages {items : List α} {body : β → α → Step σ β} (stage : List α → β → σ → Prop)
    (each : ∀ done item rest, done ++ item :: rest = items → ∀ value next before after,
      (body value item).Returns before next after → stage done value before →
      stage (done ++ [item]) next after)
    {initial result : β} {before after : σ}
    (returns : (items.foldlM body initial).Returns before result after)
    (start : stage [] initial before) : stage items result after := by
  suffices from_done : ∀ done rest, done ++ rest = items → ∀ value middle,
      (rest.foldlM body value).Returns middle result after → stage done value middle →
      stage items result after by
    exact from_done [] items rfl initial before returns start
  intro done rest whole value middle later reached
  induction rest generalizing done value middle with
  | nil =>
      obtain ⟨rfl, rfl⟩ := pure_iff.mp later
      rw [List.append_nil] at whole
      exact whole ▸ reached
  | cons item rest induction =>
      rw [List.foldlM_cons, bind_iff] at later
      obtain ⟨next, reachedNext, first, last⟩ := later
      apply induction (done ++ [item]) (by simp [← whole]) next reachedNext last
      exact each done item rest whole value next middle reachedNext first reached

end Returns

/-- Whatever its outcome, the step ends in a state with the invariant if it starts in one. -/
def Keeps (invariant : σ → Prop) (step : Step σ α) : Prop :=
  ∀ state, invariant state → invariant (step.outcome state).2

namespace Keeps

variable {invariant : σ → Prop}

theorem returns {step : Step σ α} (keeps : step.Keeps invariant) {before after : σ} {value : α}
    (returned : step.Returns before value after) (start : invariant before) : invariant after := by
  have kept := keeps before start
  rwa [returned] at kept

theorem of_pure (value : α) : (pure value : Step σ α).Keeps invariant :=
  fun _ start => start

theorem of_get : (get : Step σ σ).Keeps invariant :=
  fun _ start => start

theorem of_fail (fault : Fault) : (fail fault : Step σ α).Keeps invariant :=
  fun _ start => start

theorem of_of_except (result : Except Fault α) :
    (ofExcept result : Step σ α).Keeps invariant := by
  intro state start
  rw [outcome_of_except]
  exact start

theorem of_modify {change : σ → σ} (each : ∀ state, invariant state → invariant (change state)) :
    (modify change : Step σ PUnit).Keeps invariant :=
  each

theorem bind_from {step : Step σ α} {next : α → Step σ β} {state : σ}
    (first : invariant (step.outcome state).2)
    (second : ∀ value middle, step.Returns state value middle → invariant middle →
      invariant ((next value).outcome middle).2) :
    invariant ((step >>= next).outcome state).2 := by
  rw [outcome_bind]
  rcases reached : step.outcome state with ⟨result, middle⟩
  rw [reached] at first
  cases result with
  | ok value => exact second value middle reached first
  | error fault => exact first

/-- The second step only has to keep the invariant from the states the first one can return in. -/
theorem of_bind_returns {step : Step σ α} {next : α → Step σ β} (first : step.Keeps invariant)
    (second : ∀ before value middle, invariant before → step.Returns before value middle →
      invariant middle → invariant ((next value).outcome middle).2) :
    (step >>= next).Keeps invariant :=
  fun state start => bind_from (first state start) fun value middle => second state value middle start

theorem of_bind {step : Step σ α} {next : α → Step σ β} (first : step.Keeps invariant)
    (second : ∀ value, (next value).Keeps invariant) : (step >>= next).Keeps invariant :=
  of_bind_returns first fun _ value middle _ _ => second value middle

theorem of_forM {items : List α} {body : α → Step σ PUnit}
    (each : ∀ item ∈ items, (body item).Keeps invariant) : (items.forM body).Keeps invariant := by
  induction items with
  | nil => exact of_pure _
  | cons item items induction =>
      rw [forM_cons]
      refine of_bind (each item (by simp)) fun _ => ?_
      exact induction fun other member => each other (by simp [member])

theorem of_ite_bind {condition : Prop} [Decidable condition] {one two : Step σ α}
    {next : α → Step σ β} (first : one.Keeps invariant) (second : two.Keeps invariant)
    (rest : ∀ value, (next value).Keeps invariant) :
    (if condition then one >>= next else two >>= next).Keeps invariant := by
  split
  · exact of_bind first rest
  · exact of_bind second rest

theorem of_mapM {items : List α} {body : α → Step σ β}
    (each : ∀ item ∈ items, (body item).Keeps invariant) : (items.mapM body).Keeps invariant := by
  induction items with
  | nil =>
      rw [List.mapM_nil]
      exact of_pure _
  | cons item items induction =>
      rw [List.mapM_cons]
      refine of_bind (each item (by simp)) fun _ => ?_
      refine of_bind (induction fun other member => each other (by simp [member])) fun _ => ?_
      exact of_pure _

theorem of_in_context {step : Step σ α} (keeps : step.Keeps invariant) (context : String) :
    (step.inContext context).Keeps invariant := by
  intro state start
  have kept := keeps state start
  unfold inContext
  rw [outcome_function]
  rcases reached : step.outcome state with ⟨result, after⟩
  rw [reached] at kept
  cases result <;> exact kept

theorem of_within {make : τ → σ} {back : σ → τ} {result : α → σ → β} {step : Step σ α}
    {outer : τ → Prop} (keeps : step.Keeps invariant) (start : ∀ state, outer state → invariant (make state))
    (ends : ∀ state, invariant state → outer (back state)) :
    (step.within make back result).Keeps outer := by
  intro state given
  have kept := keeps (make state) (start state given)
  unfold within
  rw [outcome_function]
  rcases reached : step.outcome (make state) with ⟨ending, after⟩
  rw [reached] at kept
  cases ending <;> exact ends after kept

/-- Two loops have one outcome if their bodies have on the states of an invariant that the second
loop keeps. -/
theorem forM_congr (invariant : σ → Prop) {items : List α} {body body' : α → Step σ PUnit}
    (each : ∀ item ∈ items, ∀ state, invariant state →
      (body item).outcome state = (body' item).outcome state)
    (keeps : ∀ item ∈ items, (body' item).Keeps invariant) {state : σ} (start : invariant state) :
    (items.forM body).outcome state = (items.forM body').outcome state := by
  induction items generalizing state with
  | nil => rfl
  | cons item items induction =>
      rw [forM_cons, forM_cons]
      refine outcome_bind_congr (each item (by simp) state start) fun _ middle reached => ?_
      refine induction (fun other member => each other (by simp [member]))
        (fun other member => keeps other (by simp [member])) ?_
      exact (keeps item (by simp)).returns reached start

end Keeps

/-- From a state of the invariant, the step ends in no other faults than these. -/
def FailsFrom (invariant : σ → Prop) (faults : Fault → Prop) (step : Step σ α) : Prop :=
  ∀ state fault, invariant state → (step.outcome state).1 = .error fault → faults fault

namespace FailsFrom

variable {invariant : σ → Prop} {faults : Fault → Prop}

theorem of_pure (value : α) : (pure value : Step σ α).FailsFrom invariant faults := by
  intro state fault _ failed
  cases failed

theorem of_get : (get : Step σ σ).FailsFrom invariant faults := by
  intro state fault _ failed
  cases failed

theorem of_set (next : σ) : (set next : Step σ PUnit).FailsFrom invariant faults := by
  intro state fault _ failed
  cases failed

theorem of_modify (change : σ → σ) : (modify change : Step σ PUnit).FailsFrom invariant faults := by
  intro state fault _ failed
  cases failed

theorem of_fail {fault : Fault} (allowed : faults fault) :
    (fail fault : Step σ α).FailsFrom invariant faults := by
  intro state other _ failed
  cases failed
  exact allowed

theorem of_of_except {result : Except Fault α} (refused : ∀ fault, result = .error fault → faults fault) :
    (ofExcept result : Step σ α).FailsFrom invariant faults := by
  intro state fault _ failed
  rw [outcome_of_except] at failed
  exact refused fault failed

theorem of_bind_returns {step : Step σ α} {next : α → Step σ β} (keeps : step.Keeps invariant)
    (first : step.FailsFrom invariant faults)
    (second : ∀ before value after, invariant before → step.Returns before value after →
      (next value).FailsFrom invariant faults) : (step >>= next).FailsFrom invariant faults := by
  intro state fault start failed
  rw [outcome_bind] at failed
  rcases reached : step.outcome state with ⟨result, middle⟩
  rw [reached] at failed
  cases result with
  | ok value =>
      exact second state value middle start reached middle fault (keeps.returns reached start) failed
  | error other =>
      cases failed
      exact first state fault start (by rw [reached])

theorem of_bind {step : Step σ α} {next : α → Step σ β} (keeps : step.Keeps invariant)
    (first : step.FailsFrom invariant faults)
    (second : ∀ value, (next value).FailsFrom invariant faults) :
    (step >>= next).FailsFrom invariant faults :=
  of_bind_returns keeps first fun _ value _ _ _ => second value

theorem of_get_bind {next : σ → Step σ β}
    (rest : ∀ state, invariant state → (next state).FailsFrom invariant faults) :
    (get >>= next).FailsFrom invariant faults := by
  refine of_bind_returns .of_get of_get fun before value after start returns => ?_
  obtain ⟨rfl, _⟩ := Returns.get_iff.mp returns
  exact rest before start

theorem of_check {result : Except Fault α} {next : α → Step σ β}
    (refused : ∀ fault, result = .error fault → faults fault)
    (passed : ∀ value, result = .ok value → (next value).FailsFrom invariant faults) :
    (ofExcept result >>= next).FailsFrom invariant faults := by
  refine of_bind_returns (.of_of_except result) (of_of_except refused)
    fun before value after _ returns => ?_
  exact passed value (Returns.of_except_iff.mp returns).1

theorem of_forM {items : List α} {body : α → Step σ PUnit}
    (keeps : ∀ item ∈ items, (body item).Keeps invariant)
    (each : ∀ item ∈ items, (body item).FailsFrom invariant faults) :
    (items.forM body).FailsFrom invariant faults := by
  induction items with
  | nil => exact of_pure _
  | cons item items induction =>
      rw [forM_cons]
      refine of_bind (keeps item List.mem_cons_self) (each item List.mem_cons_self) fun _ => ?_
      exact induction (fun other member => keeps other (List.mem_cons_of_mem _ member))
        fun other member => each other (List.mem_cons_of_mem _ member)

theorem of_mapM {items : List α} {body : α → Step σ β}
    (keeps : ∀ item ∈ items, (body item).Keeps invariant)
    (each : ∀ item ∈ items, (body item).FailsFrom invariant faults) :
    (items.mapM body).FailsFrom invariant faults := by
  induction items with
  | nil => exact of_pure _
  | cons item items induction =>
      rw [List.mapM_cons]
      refine of_bind (keeps item List.mem_cons_self) (each item List.mem_cons_self) fun _ => ?_
      have later := induction (fun other member => keeps other (List.mem_cons_of_mem _ member))
        fun other member => each other (List.mem_cons_of_mem _ member)
      refine of_bind (.of_mapM fun other member => ?_) later fun _ => of_pure _
      exact keeps other (List.mem_cons_of_mem _ member)

theorem of_foldlM {items : List α} {body : β → α → Step σ β}
    (keeps : ∀ item ∈ items, ∀ value, (body value item).Keeps invariant)
    (each : ∀ item ∈ items, ∀ value, (body value item).FailsFrom invariant faults) (start : β) :
    (items.foldlM body start).FailsFrom invariant faults := by
  induction items generalizing start with
  | nil => exact of_pure _
  | cons item items induction =>
      rw [List.foldlM_cons]
      refine of_bind (keeps item List.mem_cons_self start) (each item List.mem_cons_self start) ?_
      exact induction (fun other member => keeps other (List.mem_cons_of_mem _ member))
        fun other member => each other (List.mem_cons_of_mem _ member)

theorem of_ite_bind {condition : Prop} [Decidable condition] {one two : Step σ α}
    {next : α → Step σ β} (keepsOne : one.Keeps invariant) (keepsTwo : two.Keeps invariant)
    (first : condition → one.FailsFrom invariant faults)
    (second : ¬condition → two.FailsFrom invariant faults)
    (rest : ∀ value, (next value).FailsFrom invariant faults) :
    (if condition then one >>= next else two >>= next).FailsFrom invariant faults := by
  split
  · rename_i holds
    exact of_bind keepsOne (first holds) rest
  · rename_i fails
    exact of_bind keepsTwo (second fails) rest

theorem of_in_context {step : Step σ α} (fails : step.FailsFrom invariant faults) (context : String)
    (allowed : ∀ fault, faults fault → faults (fault.withContext context)) :
    (step.inContext context).FailsFrom invariant faults := by
  intro state fault start failed
  have early := fails state
  unfold inContext at failed
  rw [outcome_function] at failed
  rcases reached : step.outcome state with ⟨result, after⟩
  rw [reached] at early failed
  cases result with
  | ok value => cases failed
  | error other =>
      cases failed
      exact allowed other (early other start rfl)

theorem of_within {make : τ → σ} {back : σ → τ} {result : α → σ → β} {step : Step σ α}
    {outer : τ → Prop} (fails : step.FailsFrom invariant faults)
    (start : ∀ state, outer state → invariant (make state)) :
    (step.within make back result).FailsFrom outer faults := by
  intro state fault given failed
  have early := fails (make state)
  unfold within at failed
  rw [outcome_function] at failed
  rcases reached : step.outcome (make state) with ⟨ending, after⟩
  rw [reached] at early failed
  cases ending with
  | ok value => cases failed
  | error other =>
      cases failed
      exact early fault (start state given) rfl

theorem of_on_part {part : σ → τ} {replace : τ → σ → σ} {step : Step τ α} {inner : τ → Prop}
    (fails : step.FailsFrom inner faults) (enters : ∀ state, invariant state → inner (part state)) :
    (step.onPart part replace).FailsFrom invariant faults := by
  intro state fault start failed
  rw [outcome_on_part] at failed
  exact fails (part state) fault (enters state start) failed

end FailsFrom

def FailsAs (faults : Fault → Prop) (step : Step σ α) : Prop :=
  step.FailsFrom (fun _ => True) faults

theorem FailsFrom.of_fails_as {invariant : σ → Prop} {faults : Fault → Prop} {step : Step σ α}
    (fails : step.FailsAs faults) : step.FailsFrom invariant faults :=
  fun state fault _ failed => fails state fault trivial failed

namespace FailsAs

variable {faults : Fault → Prop}

theorem of_pure (value : α) : (pure value : Step σ α).FailsAs faults :=
  FailsFrom.of_pure value

theorem of_get : (get : Step σ σ).FailsAs faults :=
  FailsFrom.of_get

theorem of_set (next : σ) : (set next : Step σ PUnit).FailsAs faults :=
  FailsFrom.of_set next

theorem of_modify (change : σ → σ) : (modify change : Step σ PUnit).FailsAs faults :=
  FailsFrom.of_modify change

theorem of_fail {fault : Fault} (allowed : faults fault) : (fail fault : Step σ α).FailsAs faults :=
  FailsFrom.of_fail allowed

theorem of_bind {step : Step σ α} {next : α → Step σ β} (first : step.FailsAs faults)
    (second : ∀ value, (next value).FailsAs faults) : (step >>= next).FailsAs faults :=
  FailsFrom.of_bind (fun _ _ => trivial) first second

theorem of_check {result : Except Fault α} {next : α → Step σ β}
    (refused : ∀ fault, result = .error fault → faults fault)
    (passed : ∀ value, result = .ok value → (next value).FailsAs faults) :
    (ofExcept result >>= next).FailsAs faults :=
  FailsFrom.of_check refused passed

theorem of_forM {items : List α} {body : α → Step σ PUnit}
    (each : ∀ item ∈ items, (body item).FailsAs faults) : (items.forM body).FailsAs faults :=
  FailsFrom.of_forM (fun _ _ _ _ => trivial) each

theorem of_mapM {items : List α} {body : α → Step σ β}
    (each : ∀ item ∈ items, (body item).FailsAs faults) : (items.mapM body).FailsAs faults :=
  FailsFrom.of_mapM (fun _ _ _ _ => trivial) each

theorem of_on_part {part : σ → τ} {replace : τ → σ → σ} {step : Step τ α}
    (inner : step.FailsAs faults) : (step.onPart part replace).FailsAs faults :=
  FailsFrom.of_on_part inner fun _ _ => trivial

end FailsAs

/-- From a state of the invariant the step, if it succeeds, ends in one, with a value that has the
property. -/
def Gives (invariant : σ → Prop) (property : α → Prop) (step : Step σ α) : Prop :=
  ∀ before value after, invariant before → step.Returns before value after →
    invariant after ∧ property value

namespace Gives

variable {invariant : σ → Prop} {property middle : α → Prop}

theorem of_pure {value : α} (holds : property value) :
    (pure value : Step σ α).Gives invariant property := by
  intro before result after start returns
  obtain ⟨rfl, rfl⟩ := Returns.pure_iff.mp returns
  exact ⟨start, holds⟩

theorem of_fail (fault : Fault) : (fail fault : Step σ α).Gives invariant property := by
  intro before result after start returns
  exact (Returns.fail_iff.mp returns).elim

theorem of_keeps {step : Step σ α} (keeps : step.Keeps invariant) :
    step.Gives invariant fun _ => True :=
  fun _ _ _ start returns => ⟨keeps.returns returns start, trivial⟩

theorem of_of_except (result : Except Fault α) :
    (ofExcept result : Step σ α).Gives invariant fun value => result = .ok value := by
  intro before value after start returns
  obtain ⟨given, rfl⟩ := Returns.of_except_iff.mp returns
  exact ⟨start, given⟩

theorem imp {step : Step σ α} (gives : step.Gives invariant middle)
    (each : ∀ value, middle value → property value) : step.Gives invariant property := by
  intro before value after start returns
  obtain ⟨reached, holds⟩ := gives before value after start returns
  exact ⟨reached, each value holds⟩

theorem of_bind {step : Step σ α} {next : α → Step σ β} {property : β → Prop}
    (first : step.Gives invariant middle)
    (second : ∀ value, middle value → (next value).Gives invariant property) :
    (step >>= next).Gives invariant property := by
  intro before result after start returns
  obtain ⟨value, reached, here, later⟩ := Returns.bind_iff.mp returns
  obtain ⟨kept, holds⟩ := first before value reached start here
  exact second value holds reached result after kept later

theorem of_ite_bind {condition : Prop} [Decidable condition] {one two : Step σ α}
    {next : α → Step σ β} {property : β → Prop} (first : one.Gives invariant middle)
    (second : two.Gives invariant middle)
    (rest : ∀ value, middle value → (next value).Gives invariant property) :
    (if condition then one >>= next else two >>= next).Gives invariant property := by
  split
  · exact of_bind first rest
  · exact of_bind second rest

theorem of_get_bind {next : σ → Step σ β} {property : β → Prop}
    (rest : ∀ state, invariant state → (next state).Gives invariant property) :
    (get >>= next).Gives invariant property := by
  intro before result after start returns
  obtain ⟨value, reached, here, later⟩ := Returns.bind_iff.mp returns
  obtain ⟨rfl, rfl⟩ := Returns.get_iff.mp here
  exact rest before start before result after start later

theorem of_mapM {items : List α} {body : α → Step σ β} {related : α → β → Prop}
    (each : ∀ item ∈ items, (body item).Gives invariant (related item)) :
    (items.mapM body).Gives invariant (List.Forall₂ related items) := by
  induction items with
  | nil =>
      rw [List.mapM_nil]
      exact of_pure .nil
  | cons item items induction =>
      rw [List.mapM_cons]
      refine of_bind (each item List.mem_cons_self) fun value holds => ?_
      refine of_bind (induction fun other member => each other (List.mem_cons_of_mem _ member))
        fun values hold => ?_
      exact of_pure (.cons holds hold)

/-- What each step of a loop says of all it lists holds of all that the loop lists. -/
theorem mapM_flatten {items : List α} {body : α → Step σ (List β)} {property : β → Prop}
    (each : ∀ item ∈ items, (body item).Gives invariant fun block => ∀ part ∈ block, property part) :
    (items.mapM body).Gives invariant fun blocks => ∀ part ∈ blocks.flatten, property part := by
  refine imp (of_mapM each) fun blocks all => ?_
  clear each
  induction all with
  | nil => simp
  | cons first _ induction =>
      rw [List.flatten_cons]
      exact List.forall_mem_append.mpr ⟨first, induction⟩

end Gives

def Succeeds (invariant : σ → Prop) (step : Step σ α) : Prop :=
  ∀ before, invariant before → ∃ value after, step.Returns before value after ∧ invariant after

namespace Succeeds

variable {invariant : σ → Prop}

theorem of_pure (value : α) : (pure value : Step σ α).Succeeds invariant :=
  fun before start => ⟨value, before, Returns.pure_iff.mpr ⟨rfl, rfl⟩, start⟩

theorem of_set {state : σ} (next : invariant state) : (set state : Step σ PUnit).Succeeds invariant :=
  fun _ _ => ⟨(), state, rfl, next⟩

theorem of_modify {change : σ → σ} (each : ∀ state, invariant state → invariant (change state)) :
    (modify change : Step σ PUnit).Succeeds invariant :=
  fun before start => ⟨(), change before, rfl, each before start⟩

theorem of_bind {step : Step σ α} {next : α → Step σ β} (first : step.Succeeds invariant)
    (second : ∀ value, (next value).Succeeds invariant) : (step >>= next).Succeeds invariant := by
  intro before start
  obtain ⟨value, middle, here, reached⟩ := first before start
  obtain ⟨result, after, later, ends⟩ := second value middle reached
  exact ⟨result, after, Returns.bind_iff.mpr ⟨value, middle, here, later⟩, ends⟩

theorem of_get_bind {next : σ → Step σ β}
    (rest : ∀ state, invariant state → (next state).Succeeds invariant) :
    (get >>= next).Succeeds invariant := by
  intro before start
  obtain ⟨result, after, later, ends⟩ := rest before start before start
  have got : (get : Step σ σ).Returns before before before := rfl
  exact ⟨result, after, Returns.bind_iff.mpr ⟨before, before, got, later⟩, ends⟩

theorem of_mapM {items : List α} {body : α → Step σ β}
    (each : ∀ item ∈ items, (body item).Succeeds invariant) :
    (items.mapM body).Succeeds invariant := by
  induction items with
  | nil =>
      rw [List.mapM_nil]
      exact of_pure _
  | cons item items induction =>
      rw [List.mapM_cons]
      apply of_bind (each item List.mem_cons_self) fun _ => ?_
      apply of_bind (induction fun other member => each other (List.mem_cons_of_mem _ member))
      exact fun _ => of_pure _

theorem of_forM {items : List α} {body : α → Step σ PUnit}
    (each : ∀ item ∈ items, (body item).Succeeds invariant) :
    (items.forM body).Succeeds invariant := by
  induction items with
  | nil => exact of_pure _
  | cons item items induction =>
      rw [forM_cons]
      refine of_bind (each item List.mem_cons_self) fun _ => ?_
      exact induction fun other member => each other (List.mem_cons_of_mem _ member)

theorem of_check {result : Except Fault α} {value : α} {next : α → Step σ β}
    (passed : result = .ok value) (rest : (next value).Succeeds invariant) :
    (ofExcept result >>= next).Succeeds invariant := by
  intro before start
  obtain ⟨final, after, later, ends⟩ := rest before start
  refine ⟨final, after, Returns.bind_iff.mpr ⟨value, before, ?_, later⟩, ends⟩
  exact Returns.of_except_iff.mpr ⟨passed, rfl⟩

theorem of_fails_as {step : Step σ α} (faultless : step.FailsAs fun _ => False)
    (keeps : step.Keeps invariant) : step.Succeeds invariant := by
  intro before start
  have kept := keeps before start
  rcases reached : step.outcome before with ⟨result, after⟩
  rw [reached] at kept
  cases result with
  | error fault => exact (faultless before fault trivial (by rw [reached])).elim
  | ok value => exact ⟨value, after, reached, kept⟩

theorem of_on_part {part : σ → τ} {replace : τ → σ → σ} {step : Step τ α} {inner : τ → Prop}
    (succeeds : step.Succeeds inner) (enters : ∀ state, invariant state → inner (part state))
    (leaves : ∀ reached state, invariant state → inner reached → invariant (replace reached state)) :
    (step.onPart part replace).Succeeds invariant := by
  intro before start
  obtain ⟨value, reached, returns, holds⟩ := succeeds (part before) (enters before start)
  refine ⟨value, replace reached before, ?_, leaves reached before start holds⟩
  exact Returns.on_part_iff.mpr ⟨reached, returns, rfl⟩

end Succeeds

theorem bind_error {step : Step σ α} {next : α → Step σ β} {before : σ} {fault : Fault}
    (failed : ((step >>= next).outcome before).1 = .error fault) :
    (step.outcome before).1 = .error fault ∨
      ∃ value middle, step.Returns before value middle ∧
        ((next value).outcome middle).1 = .error fault := by
  rw [outcome_bind] at failed
  rcases reached : step.outcome before with ⟨result, middle⟩
  rw [reached] at failed
  cases result with
  | ok value => exact .inr ⟨value, middle, reached, failed⟩
  | error other =>
      cases failed
      exact .inl rfl

/-- A loop that fails does so at one of its items, after those before it. -/
theorem forM_error {items : List α} {body : α → Step σ PUnit} {before : σ} {fault : Fault}
    (failed : ((items.forM body).outcome before).1 = .error fault) :
    ∃ done item rest state, done ++ item :: rest = items ∧
      (done.forM body).Returns before () state ∧ ((body item).outcome state).1 = .error fault := by
  induction items generalizing before with
  | nil => cases failed
  | cons item items induction =>
      rw [forM_cons, outcome_bind] at failed
      rcases reached : (body item).outcome before with ⟨result, middle⟩
      rw [reached] at failed
      cases result with
      | error other =>
          cases failed
          exact ⟨[], item, items, before, rfl, rfl, by rw [reached]⟩
      | ok value =>
          obtain ⟨done, other, rest, state, whole, returns, stops⟩ := induction failed
          refine ⟨item :: done, other, rest, state, by rw [← whole]; rfl, ?_, stops⟩
          rw [forM_cons, Returns.bind_iff]
          exact ⟨value, middle, reached, returns⟩

end Step

end SchemaStubs
