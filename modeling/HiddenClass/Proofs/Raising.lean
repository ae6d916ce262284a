import HiddenClass.Proofs.Checked.Plain
import HiddenClass.Proofs.Closed
import HiddenClass.Proofs.Refusal

/-!
Refusals that are raised where they occur, or reported at the end. A change carried out in either way
leaves the same realm, and the answers differ in nothing but the refusal.
-/

namespace HiddenClass

open HiddenClass.Action (report)

namespace Realm

theorem Holds.define_ne_rejected {realm later : Realm} {chart : Chart} {views : Views}
    {object : Handle} {view : Object.View} {reason : Rejection} (holds : realm.Holds chart views)
    (shown : views object = some view) (sound : view.content.Sound) (key : Key) (desc : Descriptor) :
    onObject object (Object.define key desc) realm ≠ .error (.error (.rejected reason)) later := by
  obtain ⟨cell, found, held⟩ := holds.find shown
  obtain ⟨bound, doomed, _, concludes⟩ := held.define sound key desc
  obtain ⟨after, _, ran, _⟩ := holds.onObject_ok found concludes
  rw [ran]
  intro same
  cases failed : (view.define bound doomed key desc).1 with
  | ok verdict =>
    rw [failed] at same
    cases same
  | error fault =>
    rw [failed] at same
    rcases Object.Content.fault_define failed with rfl | rfl <;> cases same

end Realm

theorem Request.pursue_put {realm looked : Realm} {object : Handle} {key : Key}
    {decision : Realm.Assignment} (decided : Realm.assignment object key realm = .ok decision looked)
    (value : Value) (raises : Bool) :
    (Request.put object key value raises).pursue realm =
      (looked, .ofAssignment object key value raises decision) := by
  rw [pursue, lookUp, decided]

/-- A change to one property of an object. -/
inductive Change where
  | put (object : Handle) (key : Key) (value : Value)
  | define (object : Handle) (key : Key) (desc : Descriptor)
  | delete (object : Handle) (key : Key)

namespace Change

def object : Change → Handle
  | .put object _ _ | .define object _ _ | .delete object _ => object

def request (raises : Bool) : Change → Request
  | .put object key value => .put object key value raises
  | .define object key desc => .define object key desc raises
  | .delete object key => .delete object key raises

/-- Carries the change out and refuses where the refusal occurs. -/
def attempt (host : Host) (raises : Bool) : Change → Realm.Action Bool
  | .put object key value => Realm.putWith .off raises host object key value
  | .define object key desc => Realm.defineWith .off raises object key desc
  | .delete object key => Realm.deleteWith .off raises object key

/-- Carries the change out and leaves the verdict unreported. -/
def judge (host : Host) : Change → Realm.Action Verdict
  | .put object key value => Realm.assign host object key value
  | .define object key desc => Realm.onObject object (Object.define key desc)
  | .delete object key => Realm.onObject object (Object.delete key)

variable {host : Host} {realm later : Realm} {chart : Chart} {views : Realm.Views} {change : Change}
  {raises : Bool} {verdict : Verdict} {reason : Rejection} {turns : List Turn}

/-- A refusal on the spot is one at the end. -/
theorem perform_request (host : Host) (raises : Bool) (change : Change) :
    (change.request raises).perform host = do return .accepted (← change.attempt host raises) := by
  cases change with
  | put object key value => rw [request, Request.perform, attempt, Realm.putWith_off]
  | define object key desc => rw [request, Request.perform, attempt, Realm.defineWith_off]
  | delete object key => rw [request, Request.perform, attempt, Realm.deleteWith_off]

theorem perform_judge (host : Host) (raises : Bool) (change : Change) :
    (change.request raises).perform host =
      do return .accepted (← report raises (change.judge host)) := by
  cases change <;> rfl

theorem outcome_of_verdict (raises : Bool) (judged : change.judge host realm = .ok verdict later) :
    (change.request raises).outcome host realm = (.ofVerdict raises (.ok verdict), later) := by
  have settled : change.judge host realm = Action.settled (.ok verdict) later := judged
  exact Realm.outcome_report settled raises (perform_judge host raises change)

theorem outcome_of_fault {fault : Fault} (raises : Bool)
    (judged : change.judge host realm = .error fault later) :
    (change.request raises).outcome host realm = (.stopped fault, later) := by
  rw [Request.outcome, perform_judge, Action.bind_apply, Action.report_error judged]

/-- What is left to a setter is accepted, or stops where the setter does. -/
theorem accepted_of_call (calls : (change.request raises).callsNative realm = true)
    (judged : change.judge host realm = .ok verdict later) : verdict = .accepted := by
  cases change with
  | define object key desc => cases calls
  | delete object key => cases calls
  | put object key value =>
    rw [judge, Realm.assign, Action.bind_apply] at judged
    cases decided : Realm.assignment object key realm with
    | error fault looked =>
      rw [decided] at judged
      cases judged
    | ok decision looked =>
      rw [request, Request.callsNative, Request.pursue_put decided] at calls
      rw [decided] at judged
      cases decision with
      | setter function =>
        simp only at judged
        rw [Action.bind_apply] at judged
        cases called : Realm.call host function (.object object) [value] looked with
        | error fault after =>
          rw [called] at judged
          cases judged
        | ok answer after =>
          rw [called] at judged
          cases judged
          rfl
      | refused => cases calls
      | overwrite => cases calls
      | create => cases calls

/-- Only native functions raise refusals of their own. -/
theorem judge_ne_rejected (holds : realm.Holds chart views) (valid : views.Valid)
    (live : realm.objects.contains change.object = true)
    (silent : (change.request raises).callsNative realm = false) :
    change.judge host realm ≠ .error (.error (.rejected reason)) later := by
  obtain ⟨view, shown⟩ := holds.live_iff.mpr live
  have sound := valid.sound change.object view shown
  cases change with
  | define object key desc => exact holds.define_ne_rejected shown sound key desc
  | delete object key =>
    obtain ⟨cell, found, held⟩ := holds.find shown
    obtain ⟨after, _, ran, _⟩ := holds.onObject_ok found (held.delete key)
    intro same
    cases ran.symm.trans same
  | put object key value =>
    change views object = some view at shown
    obtain ⟨bound, looked, after, ran, held⟩ := holds.assignment_settled shown (Or.inr valid) key
    cases decided : views.decision key bound view with
    | error fault =>
      rw [decided, Realm.Views.fault_decision decided] at ran
      rw [judge, Realm.assign, Action.bind_apply, ran]
      intro same
      cases same
    | ok decision =>
    rw [decided] at ran
    rw [judge, Realm.assign, Action.bind_ok ran]
    cases decision with
    | refused =>
      intro same
      cases same
    | setter function =>
      have inert := Realm.inert_of_silent (Request.pursue_put ran value raises) silent
      cases function with
      | native function => cases inert
      | _ =>
        intro same
        cases same
    | overwrite => exact held.define_ne_rejected shown sound key _
    | create => exact held.define_ne_rejected shown sound key _

/-- At any moment of a course with live handles, whether refusals are raised shows in the reply alone.
The realm that is left is the same, refusals on the spot or at the end; where the one reply is `false`,
the other is the refusal as an error, unless a native function raised it; and every other error, those
of `length` and of native functions, is raised either way. -/
theorem raises_changes_report_only {config : Config}
    (lawful : (Realm.ofConfig config).lawful host turns = true)
    (live : ((Realm.ofConfig config).course host turns).objects.contains change.object = true) :
    let realm := (Realm.ofConfig config).course host turns
    let quiet := (change.request false).outcome host realm
    let loud := (change.request true).outcome host realm
    (∀ raises, (change.request raises).perform host =
      do return .accepted (← change.attempt host raises)) ∧
    loud.2 = quiet.2 ∧
    (quiet.1 = .answered (.accepted true) ↔ loud.1 = .answered (.accepted true)) ∧
    (quiet.1 = .answered (.accepted false) ↔
      (change.request true).callsNative realm = false ∧
        ∃ reason, loud.1 = .stopped (.error (.rejected reason))) ∧
    ∀ fault, quiet.1 = .stopped fault → loud.1 = .stopped fault := by
  intro realm quiet loud
  obtain ⟨chart, views, holds, valid⟩ := Realm.holds_course lawful
  refine ⟨fun raises => perform_request host raises change, ?_⟩
  cases judged : change.judge host realm with
  | ok verdict later =>
    have hushed : quiet = _ := outcome_of_verdict false judged
    have raised : loud = _ := outcome_of_verdict true judged
    rw [hushed, raised]
    cases verdict with
    | accepted => exact ⟨rfl, Iff.rfl, ⟨nofun, fun ⟨_, _, same⟩ => nomatch same⟩, fun _ => id⟩
    | rejected reason =>
      have silent : (change.request true).callsNative realm = false := by
        by_contra calls
        rw [Bool.not_eq_false] at calls
        cases accepted_of_call calls judged
      exact ⟨rfl, ⟨nofun, nofun⟩, ⟨fun _ => ⟨silent, reason, rfl⟩, fun _ => rfl⟩, nofun⟩
  | error fault later =>
    have hushed : quiet = _ := outcome_of_fault false judged
    have raised : loud = _ := outcome_of_fault true judged
    rw [hushed, raised]
    refine ⟨rfl, Iff.rfl, ⟨nofun, ?_⟩, fun _ => id⟩
    rintro ⟨silent, reason, same⟩
    rw [Reply.stopped.inj same] at judged
    exact absurd judged (judge_ne_rejected holds valid live silent)

/-- The array is left shortened to the element at its end, whether or not that is raised. -/
theorem raises_changes_report_only_obstructed :
    let realm := (Realm.ofConfig {}).course Host.none Realm.obstructed
    let change := Change.put ⟨0, 0⟩ .length (.int 0)
    (Realm.ofConfig {}).lawful Host.none Realm.obstructed = true ∧
      realm.objects.contains change.object = true ∧
      ((change.request false).outcome Host.none realm).1 = .answered (.accepted false) ∧
      (∃ reason, ((change.request true).outcome Host.none realm).1 =
        .stopped (.error (.rejected reason))) ∧
      ((change.request true).outcome Host.none realm).2 =
        ((change.request false).outcome Host.none realm).2 := by
  intro realm change
  have lawful : (Realm.ofConfig {}).lawful Host.none Realm.obstructed = true := by decide +kernel
  have live : realm.objects.contains change.object = true := by decide +kernel
  have refused : ((change.request false).outcome Host.none realm).1 =
      .answered (.accepted false) := by decide +kernel
  have ⟨_, same, _, raised, _⟩ := raises_changes_report_only lawful live
  exact ⟨lawful, live, refused, (raised.mp refused).2, same⟩

end Change

end HiddenClass
