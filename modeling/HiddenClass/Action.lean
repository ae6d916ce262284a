import HiddenClass.Failure

/-!
Stateful operations that may stop at a fault. What was done before the fault stays done.
-/

namespace HiddenClass

abbrev Action (σ α : Type) := EStateM Fault σ α

namespace Action

variable {σ τ α : Type}

/-- Runs an action on a part of the state and puts the part back, after a fault as well. -/
def focus (view : σ → τ) (update : σ → τ → σ) (action : Action τ α) : Action σ α := fun state =>
  match action (view state) with
  | .ok answer part => .ok answer (update state part)
  | .error fault part => .error fault (update state part)

/-- Turns a verdict into the answer that the caller asked for. -/
def report (raises : Bool) (action : Action σ Verdict) : Action σ Bool := do
  match (← action).report raises with
  | .ok answer => return answer
  | .error error => throw (.error error)

end Action

end HiddenClass
