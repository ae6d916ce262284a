import HiddenClass.Action

/-!
Running an action step by step, and what an action leaves behind whether or not it comes to its end.
-/

namespace HiddenClass.Action

variable {σ τ α β : Type} {state after : σ} {answer : α}

theorem get_apply (state : σ) : (get : Action σ σ) state = .ok state state := rfl

theorem bind_apply (action : Action σ α) (next : α → Action σ β) (state : σ) :
    (action >>= next) state =
      match action state with
      | .ok answer after => next answer after
      | .error fault after => .error fault after := by
  change EStateM.bind action next state = _
  unfold EStateM.bind
  cases action state <;> rfl

theorem bind_ok {action : Action σ α} (ran : action state = .ok answer after)
    (next : α → Action σ β) : (action >>= next) state = next answer after := by
  rw [bind_apply, ran]

theorem focus_ok {view : σ → τ} {update : σ → τ → σ} {action : Action τ α} {part : τ}
    (ran : action (view state) = .ok answer part) :
    focus view update action state = .ok answer (update state part) := by
  rw [focus, ran]

/-- An answer, or a fault in its place. -/
def settled (answer : Except Fault α) (after : σ) : EStateM.Result Fault σ α :=
  match answer with
  | .ok answer => .ok answer after
  | .error fault => .error fault after

/-- How a verdict ends under a choice of reporting. -/
def ending (raises : Bool) (verdict : Verdict) (after : σ) : EStateM.Result Fault σ Bool :=
  match verdict.report raises with
  | .ok answer => .ok answer after
  | .error error => .error (.error error) after

theorem report_ok {action : Action σ Verdict} {verdict : Verdict}
    (ran : action state = .ok verdict after) (raises : Bool) :
    report raises action state = ending raises verdict after := by
  unfold report ending
  rw [bind_ok ran]
  cases verdict.report raises <;> rfl

theorem report_error {action : Action σ Verdict} {fault : Fault}
    (ran : action state = .error fault after) (raises : Bool) :
    report raises action state = .error fault after := by
  unfold report
  rw [bind_apply, ran]

/-- What an action answers, if it comes to its end. -/
def answer? (action : Action σ α) (state : σ) : Option α :=
  match action state with
  | .ok answer _ => some answer
  | .error _ _ => none

theorem answer?_ok {action : Action σ α} (ran : action state = .ok answer after) :
    action.answer? state = some answer := by
  rw [answer?, ran]

/-! ### The state left behind -/

/-- The state after an action, reached or not its end. -/
def final (action : Action σ α) (state : σ) : σ :=
  match action state with
  | .ok _ after => after
  | .error _ after => after

theorem final_ok {action : Action σ α} (ran : action state = .ok answer after) :
    action.final state = after := by
  rw [final, ran]

theorem final_error {action : Action σ α} {fault : Fault} (ran : action state = .error fault after) :
    action.final state = after := by
  rw [final, ran]

theorem final_settled {action : Action σ α} {answer : Except Fault α}
    (ran : action state = settled answer after) : action.final state = after := by
  rw [final, ran]
  cases answer <;> rfl

theorem final_bind {action : Action σ α} (ran : action state = .ok answer after)
    (next : α → Action σ β) : (action >>= next).final state = (next answer).final after := by
  rw [final, final, bind_ok ran]

theorem final_stopped {action : Action σ α} {fault : Fault}
    (ran : action state = .error fault after) (next : α → Action σ β) :
    (action >>= next).final state = after := by
  rw [final, bind_apply, ran]

theorem final_report (raises : Bool) (action : Action σ Verdict) (state : σ) :
    (report raises action).final state = action.final state := by
  cases ran : action state with
  | ok verdict after =>
    unfold final
    rw [report_ok ran, ran, ending]
    cases verdict.report raises <;> rfl
  | error fault after => rw [final_error ran, final_error (report_error ran raises)]

/-! ### What an action leaves alone -/

/-- A part of the state is the same after the action, reached or not its end. -/
def Keeps {ρ : Type} (part : σ → ρ) (action : Action σ α) (state : σ) : Prop :=
  part (action.final state) = part state

section Keeps

variable {ρ π : Type} {part : σ → ρ} {action : Action σ α} {next : α → Action σ β}

theorem Keeps.ok (keeps : action.Keeps part state) (ran : action state = .ok answer after) :
    part after = part state := by
  rw [Keeps, final_ok ran] at keeps
  exact keeps

theorem keeps_get {next : σ → Action σ β} (second : Keeps part (next state) state) :
    Keeps part (get >>= next) state := second

theorem Keeps.bind (first : action.Keeps part state)
    (second : ∀ answer after, action state = .ok answer after → (next answer).Keeps part after) :
    Keeps part (action >>= next) state := by
  unfold Keeps final
  rw [bind_apply]
  cases ran : action state with
  | ok answer after => exact (second answer after ran).trans (first.ok ran)
  | error fault after =>
    rw [Keeps, final_error ran] at first
    exact first

/-- An action on a part of the state keeps what the way back keeps. -/
theorem Keeps.focus {view : σ → τ} {update : σ → τ → σ} {action : Action τ α} {inner : τ → π}
    (first : action.Keeps inner (view state))
    (back : ∀ rest, inner rest = inner (view state) → part (update state rest) = part state) :
    (focus view update action).Keeps part state := by
  unfold Keeps final Action.focus
  unfold Keeps final at first
  cases ran : action (view state) with
  | ok answer rest =>
    rw [ran] at first
    exact back rest first
  | error fault rest =>
    rw [ran] at first
    exact back rest first

end Keeps

end HiddenClass.Action
