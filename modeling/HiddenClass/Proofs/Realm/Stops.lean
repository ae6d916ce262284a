import HiddenClass.Proofs.Realm.Course

/-!
Where requests stop. A request that is one turn stops at an error, goes around a chain of prototypes,
or overflows in the definition of a property. It never stops at a cell that is gone.
-/

namespace HiddenClass

/-- An error, or a search that goes around. -/
def Fault.isOrdinary : Fault → Bool
  | .error _ | .endless => true
  | .stale _ | .overflow | .tooDeep => false

namespace Realm

variable {realm looked : Realm} {chart : Chart} {views later : Views} {request : Request}
  {reply : Reply} {host : Host} {fault : Fault} {raises : Bool}

/-! ### Actions -/

/-- An action that does not stop at anything out of the ordinary. -/
def Safe {α : Type} (action : Action α) (realm : Realm) : Prop :=
  match action realm with
  | .ok _ _ => True
  | .error fault _ => fault.isOrdinary = true

section Safe

variable {α β : Type} {action : Action α} {next : α → Action β} {answer : α} {after : Realm}

theorem safe_bind (ran : action realm = .ok answer after) (second : Safe (next answer) after) :
    Safe (action >>= next) realm := by
  rw [Safe, Action.bind_ok ran]
  exact second

theorem safe_stopped (ran : action realm = .error fault after) (ordinary : fault.isOrdinary = true)
    (next : α → Action β) : Safe (action >>= next) realm := by
  rw [Safe, Action.bind_apply, ran]
  exact ordinary

theorem safe_map (first : Safe action realm) (change : α → β) :
    Safe (action >>= fun answer => pure (change answer)) realm := by
  unfold Safe at first ⊢
  rw [Action.bind_apply]
  cases ran : action realm with
  | ok answer after => exact trivial
  | error fault after =>
    rw [ran] at first
    exact first

theorem safe_report {action : Action Verdict} (first : Safe action realm) (raises : Bool) :
    Safe (Action.report raises action) realm := by
  unfold Safe at first ⊢
  cases ran : action realm with
  | ok verdict after =>
    rw [Action.report_ok ran, Action.ending]
    cases verdict.report raises with
    | ok yes => exact trivial
    | error error => exact rfl
  | error fault after =>
    rw [ran] at first
    rw [Action.report_error ran]
    exact first

theorem safe_call {accessor : Value} (inert : accessor.isCallable = false) (host : Host)
    (this : Value) (arguments : List Value) (realm : Realm) :
    Safe (call host accessor this arguments) realm := by
  cases accessor with
  | undefined => exact trivial
  | native function => cases inert
  | _ => exact rfl

/-- A safe request stops in the ordinary way. -/
theorem ordinary_of_safe (safe : Safe (request.perform host) realm)
    (stopped : (request.outcome host realm).1 = .stopped fault) : fault.isOrdinary = true := by
  unfold Safe at safe
  unfold Request.outcome at stopped
  cases ran : request.perform host realm with
  | ok answer after =>
    rw [ran] at stopped
    cases stopped
  | error fault after =>
    rw [ran] at safe stopped
    exact Reply.stopped.inj stopped ▸ safe

end Safe

theorem inert_of_silent {accessor this : Value} {arguments : List Value}
    (pursued : request.pursue realm = (looked, .ofAccessor accessor this arguments))
    (silent : request.callsNative realm = false) : accessor.isCallable = false := by
  rw [Request.callsNative, pursued] at silent
  cases accessor with
  | native function => cases silent
  | _ => rfl

/-! ### Steps -/

/-- The request defines a property, and a sum that it comes to is no machine word. -/
def Views.Overflows (views : Views) (request : Request) : Prop :=
  ∃ object key desc raises view bound doomed,
    request = .define object key desc raises ∧ views object = some view ∧
    (∀ length, key = Key.length → Elements.lengthOf? desc.value = some length →
      view.content.Doomed length doomed) ∧
    (view.define bound doomed key desc).1 = .error .overflow

theorem ofVerdict_stopped {answer : Except Fault Verdict}
    (stopped : Reply.ofVerdict raises answer = .stopped fault) :
    answer = .error fault ∨ fault.isOrdinary = true := by
  unfold Reply.ofVerdict at stopped
  cases answer with
  | error fault => exact Or.inl (congrArg Except.error (Reply.stopped.inj stopped))
  | ok verdict =>
    simp only at stopped
    cases reported : verdict.report raises with
    | ok yes =>
      rw [reported] at stopped
      cases stopped
    | error error =>
      rw [reported] at stopped
      cases stopped
      exact Or.inr rfl

theorem ofSearch_stopped {key : Key} {bound : Nat} {object : Handle}
    (stopped : Reply.ofSearch (views.search key bound object) = .stopped fault) :
    fault.isOrdinary = true := by
  cases searched : views.search key bound object with
  | ok found =>
    rw [searched] at stopped
    cases stopped
  | error other =>
    rw [searched, Views.fault_search searched] at stopped
    cases stopped
    rfl

theorem Views.Step.stopped (step : views.Step request (.stopped fault) later) :
    fault.isOrdinary = true ∨ fault = .overflow ∧ views.Overflows request := by
  cases request with
  | intern text | collect roots =>
    obtain ⟨⟨_, same⟩, _⟩ := step
    cases same
  | newObject prototype | newUniqueObject prototype | newArray length | getOwn object key
  | preventExtensions object | setPrototype object prototype =>
    obtain ⟨_, _, same, _⟩ := step
    cases same
  | getProperty object key =>
    obtain ⟨_, same, _⟩ := step
    exact Or.inl (ofSearch_stopped same.symm)
  | define object key desc raises =>
    obtain ⟨view, bound, doomed, shown, listed, same, _⟩ := step
    rcases ofVerdict_stopped same.symm with failed | ordinary
    · rcases Object.Content.fault_define failed with rfl | rfl
      · exact Or.inl rfl
      · exact Or.inr ⟨rfl, object, key, desc, raises, view, bound, doomed, rfl, shown, listed, failed⟩
    · exact Or.inl ordinary
  | delete object key raises =>
    obtain ⟨_, _, same, _⟩ := step
    rcases ofVerdict_stopped same.symm with failed | ordinary
    · cases failed
    · exact Or.inl ordinary
  | keys object filter =>
    obtain ⟨_, _, _, _, same, _⟩ := step
    cases same
  | makeUnique object | makeTransitionable object =>
    obtain ⟨same, _⟩ := step
    cases same
  | read object key | put object key value raises => exact step.elim

/-! ### Turns -/

section Nothing

variable {object : Handle} {key : Key} {value : Value} {view : Object.View}

theorem Holds.safe_read (holds : realm.Holds chart views) (valid : views.Valid)
    (live : views.Live object)
    (silent : (Request.read object key).callsNative realm = false) (host : Host) :
    Safe (read host object key) realm := by
  obtain ⟨looked, _, ran, _⟩ := holds.getProperty_settled valid live key
  cases searched : views.search key (realm.objects.capacity + 1) object with
  | error fault =>
    rw [searched, Views.fault_search searched] at ran
    exact safe_stopped ran rfl _
  | ok found =>
    rw [searched] at ran
    apply safe_bind ran
    have pursued : (Request.read object key).pursue realm = (looked, .ofRead object found) := by
      rw [Request.pursue, Request.lookUp, ran]
      rfl
    cases found with
    | none => exact trivial
    | some desc =>
      unfold Pursuit.ofRead at pursued
      simp only
      split
      · rename_i accessor
        simp only [if_pos accessor] at pursued
        exact safe_call (inert_of_silent pursued silent) host _ _ looked
      · exact trivial

/-- An assignment that comes to no definition is refused or calls nothing. -/
theorem Holds.safe_assign (holds : realm.Holds chart views) (valid : views.Valid)
    (shown : views object = some view)
    (nothing : ((Request.put object key value raises).pursue realm).2 = .nothing) (host : Host) :
    Safe (assign host object key value) realm := by
  have silent : (Request.put object key value raises).callsNative realm = false := by
    rw [Request.callsNative, nothing]
  obtain ⟨bound, looked, _, ran, _⟩ := holds.assignment_settled shown (Or.inr valid) key
  cases decided : views.decision key bound view with
  | error fault =>
    rw [decided, Views.fault_decision decided] at ran
    exact safe_stopped ran rfl _
  | ok decision =>
    rw [decided] at ran
    apply safe_bind ran
    have pursued : (Request.put object key value raises).pursue realm =
        (looked, .ofAssignment object key value raises decision) := by
      rw [Request.pursue, Request.lookUp, ran]
      rfl
    cases decision with
    | refused => exact trivial
    | setter function =>
      exact safe_map (safe_call (inert_of_silent pursued silent) host _ _ looked) _
    | overwrite | create =>
      rw [pursued] at nothing
      cases nothing

/-- A request that comes to no other one stops in the ordinary way. -/
theorem Holds.ordinary_of_nothing (holds : realm.Holds chart views) (valid : views.Valid)
    (live : ∀ handle ∈ request.handles, views.Live handle)
    (nothing : (request.pursue realm).2 = .nothing)
    (stopped : (request.outcome host realm).1 = .stopped fault) : fault.isOrdinary = true := by
  apply ordinary_of_safe ?_ stopped
  cases request with
  | read object key =>
    have silent : (Request.read object key).callsNative realm = false := by
      rw [Request.callsNative, nothing]
    exact safe_map (holds.safe_read valid (live object (List.mem_singleton_self object)) silent host) _
  | put object key value raises =>
    obtain ⟨view, shown⟩ := live object (List.mem_cons_self ..)
    exact safe_map (safe_report (holds.safe_assign valid shown nothing host) raises) _
  | _ => cases nothing

end Nothing

/-- A request that is one turn and stops has met an error or goes around, or it defines a property and
overflows. -/
theorem Holds.stopped (holds : realm.Holds chart views) (valid : views.Valid)
    (lawful : (Turn.make request).isLawful realm = true)
    (stopped : (request.outcome host realm).1 = .stopped fault) :
    fault.isOrdinary = true ∨ fault = .overflow ∧
      ∃ next, (request.pursue realm).2 = .ask next ∧ views.Overflows next := by
  obtain ⟨named, unsaid⟩ := Bool.and_eq_true_iff.mp lawful
  by_cases collecting : ∃ roots, request = .collect roots
  · obtain ⟨roots, rfl⟩ := collecting
    obtain ⟨_, _, step, _⟩ := holds.step_collect valid (holds.clear named) host
    rw [stopped] at step
    exact step.stopped.imp_right fun exceeds => ⟨exceeds.1, _, rfl, exceeds.2⟩
  have contained := Request.live_of_namesLive named fun roots same => collecting ⟨roots, same⟩
  have live : ∀ handle ∈ request.handles, views.Live handle :=
    fun handle member => holds.live_iff.mpr (contained handle member)
  cases pursued : (request.pursue realm).2 with
  | nothing => exact Or.inl (holds.ordinary_of_nothing valid live pursued stopped)
  | ask next =>
    obtain ⟨between, looked⟩ := holds.pursue valid live
    obtain ⟨_, _, step, _⟩ := looked.step host valid
      (fun handle member => live handle (Request.handles_of_ask pursued handle member))
      (Request.direct_of_ask pursued)
    rw [← Request.outcome_of_ask host pursued, stopped] at step
    exact step.stopped.imp_right fun exceeds => ⟨exceeds.1, next, rfl, exceeds.2⟩
  | call function this arguments =>
    rw [Request.callsNative, pursued] at unsaid
    cases unsaid

end Realm

end HiddenClass
