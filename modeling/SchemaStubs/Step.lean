import SchemaStubs.Fault

/-!
Steps over a state. A step that fails keeps the state it reached, because later answers can show
it.
-/

namespace SchemaStubs

abbrev Step (σ : Type) := ExceptT Fault (StateM σ)

namespace Step

/-- The outcome of a step from a state, and the state it ends in. -/
def outcome {σ α : Type} (step : Step σ α) (state : σ) : Except Fault α × σ :=
  step.run.run state

def onPart {σ τ α : Type} (part : σ → τ) (replace : τ → σ → σ) (step : Step τ α) : Step σ α :=
  fun state =>
    let (result, reached) := step.outcome (part state)
    (result, replace reached state)

def fail {σ α : Type} (fault : Fault) : Step σ α :=
  throw fault

def ofExcept {σ α : Type} (result : Except Fault α) : Step σ α :=
  match result with
  | .ok value => pure value
  | .error fault => throw fault

/-- Runs a step over a state that is made for it; a result of the step and what belongs to the outer
state are all that stays. -/
def within {σ τ α β : Type} (make : τ → σ) (back : σ → τ) (result : α → σ → β) (step : Step σ α) :
    Step τ β :=
  fun state =>
    match step.outcome (make state) with
    | (.ok value, reached) => (.ok (result value reached), back reached)
    | (.error fault, reached) => (.error fault, back reached)

def inContext {σ α : Type} (context : String) (step : Step σ α) : Step σ α :=
  fun state =>
    match step.outcome state with
    | (.ok value, reached) => (.ok value, reached)
    | (.error fault, reached) => (.error (fault.withContext context), reached)

end Step

end SchemaStubs
