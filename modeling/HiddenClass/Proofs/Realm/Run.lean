import HiddenClass.Proofs.Collect.Views

/-!
Runs in which every handle that is passed is live. A native function acts on a realm by requests of
its own, so a run has the requests of the program and, in their place, those of the functions that
it calls.
-/

namespace HiddenClass

/-- What a read or an assignment comes to when its property has been looked up. -/
inductive Pursuit where
  | nothing
  | ask (request : Request)
  | call (function : Native) (this : Value) (arguments : List Value)

namespace Pursuit

def ofAccessor (accessor this : Value) (arguments : List Value) : Pursuit :=
  match accessor with
  | .native function => .call function this arguments
  | _ => .nothing

def ofRead (object : Handle) (found : Option Descriptor) : Pursuit :=
  match found with
  | some desc =>
    if desc.isAccessor then .ofAccessor desc.getter (.object object) [] else .nothing
  | none => .nothing

def ofAssignment (object : Handle) (key : Key) (value : Value) (raises : Bool) :
    Realm.Assignment → Pursuit
  | .refused => .nothing
  | .setter function => .ofAccessor function (.object object) [value]
  | .overwrite => .ask (.define object key (.assignment value) raises)
  | .create => .ask (.define object key (.plain value) raises)

/-- What the pursuit of a request makes of a realm. -/
def after (host : Host) (realm : Realm) : Pursuit → Realm
  | .nothing => realm
  | .ask request => (request.outcome host realm).2
  | .call function this arguments => Action.final (host function this arguments) realm

end Pursuit

namespace Request

/-- Looks something up and decides by it what to do. -/
def lookUp {α : Type} (action : Realm.Action α) (decide : α → Pursuit) (realm : Realm) :
    Realm × Pursuit :=
  match action realm with
  | .ok answer looked => (looked, decide answer)
  | .error _ looked => (looked, .nothing)

theorem fst_lookUp {α : Type} (action : Realm.Action α) (decide : α → Pursuit) (realm : Realm) :
    (lookUp action decide realm).1 = Action.final action realm := by
  unfold lookUp Action.final
  cases action realm <;> rfl

/-- The realm when the property has been looked up, and what is to be done then. -/
def pursue (realm : Realm) : Request → Realm × Pursuit
  | .read object key => lookUp (Realm.getProperty object key) (.ofRead object) realm
  | .put object key value raises =>
    lookUp (Realm.assignment object key) (.ofAssignment object key value raises) realm
  | request => (realm, .ask request)

variable {host : Host} {request : Request} {realm : Realm} {α β : Type}

theorem outcome_snd (host : Host) (request : Request) (realm : Realm) :
    (request.outcome host realm).2 = Action.final (request.perform host) realm := by
  unfold outcome Action.final
  cases request.perform host realm <;> rfl

theorem final_call (host : Host) (accessor this : Value) (arguments : List Value) (realm : Realm) :
    Action.final (Realm.call host accessor this arguments) realm =
      (Pursuit.ofAccessor accessor this arguments).after host realm := by
  cases accessor <;> rfl

theorem final_map (action : Realm.Action α) (next : α → β) (realm : Realm) :
    Action.final (action >>= fun answer => pure (next answer)) realm = Action.final action realm := by
  unfold Action.final
  rw [Action.bind_apply]
  cases action realm <;> rfl

theorem final_define (host : Host) (object : Handle) (key : Key) (desc : Descriptor) (raises : Bool)
    (realm : Realm) :
    Action.final (Realm.onObject object (Object.define key desc)) realm =
      (Pursuit.ask (.define object key desc raises)).after host realm := by
  rw [Pursuit.after, outcome_snd, perform, final_map, Realm.define, Action.final_report]

theorem final_lookUp {action : Realm.Action α} {next : α → Realm.Action β} {decide : α → Pursuit}
    (each : ∀ answer looked,
      Action.final (next answer) looked = (decide answer).after host looked) (realm : Realm) :
    Action.final (action >>= next) realm =
      (lookUp action decide realm).2.after host (lookUp action decide realm).1 := by
  unfold lookUp Action.final
  rw [Action.bind_apply]
  cases action realm with
  | ok answer looked => exact each answer looked
  | error fault looked => rfl

/-- Pursuing a request makes of the realm what performing it does. -/
theorem after_pursue (host : Host) (request : Request) (realm : Realm) :
    (request.pursue realm).2.after host (request.pursue realm).1 = (request.outcome host realm).2 := by
  cases request with
  | read object key =>
    rw [outcome_snd, perform, final_map, Realm.read]
    refine (final_lookUp (fun found looked => ?_) realm).symm
    cases found with
    | none => rfl
    | some desc =>
      simp only [Pursuit.ofRead]
      by_cases accessor : desc.isAccessor = true
      · rw [if_pos accessor, if_pos accessor, final_call]
      · rw [if_neg accessor, if_neg accessor]
        rfl
  | put object key value raises =>
    rw [outcome_snd, perform, final_map, Realm.put, Action.final_report, Realm.assign]
    refine (final_lookUp (fun decision looked => ?_) realm).symm
    cases decision with
    | refused => rfl
    | setter function =>
      simp only
      rw [final_map, final_call, Pursuit.ofAssignment]
    | overwrite => exact final_define host object key (.assignment value) raises looked
    | create => exact final_define host object key (.plain value) raises looked
  | _ => rfl

end Request

namespace Realm

/-- The run of a list of requests, with the direct ones among them and among those of the functions
called, and their replies. Every request passes handles that are live when it is made. -/
inductive Run (host : Host) : Realm → List Request → List (Request × Reply) → Realm → Prop where
  | nil (realm : Realm) : Run host realm [] [] realm
  | direct {realm after : Realm} {request : Request} {rest : List Request}
      {events : List (Request × Reply)} (direct : request.isDirect = true)
      (live : ∀ handle ∈ request.handles, realm.objects.contains handle = true)
      (next : Run host (request.outcome host realm).2 rest events after) :
      Run host realm (request :: rest) ((request, (request.outcome host realm).1) :: events) after
  | nothing {realm looked after : Realm} {request : Request} {rest : List Request}
      {events : List (Request × Reply)} (indirect : request.isDirect = false)
      (live : ∀ handle ∈ request.handles, realm.objects.contains handle = true)
      (pursued : request.pursue realm = (looked, .nothing))
      (next : Run host looked rest events after) : Run host realm (request :: rest) events after
  | ask {realm looked after : Realm} {request pursuit : Request} {rest : List Request}
      {events : List (Request × Reply)} (indirect : request.isDirect = false)
      (live : ∀ handle ∈ request.handles, realm.objects.contains handle = true)
      (pursued : request.pursue realm = (looked, .ask pursuit))
      (next : Run host looked (pursuit :: rest) events after) :
      Run host realm (request :: rest) events after
  | call {realm looked after : Realm} {request : Request} {function : Native} {this : Value}
      {arguments : List Value} {asked rest : List Request} {inner events : List (Request × Reply)}
      (indirect : request.isDirect = false)
      (live : ∀ handle ∈ request.handles, realm.objects.contains handle = true)
      (pursued : request.pursue realm = (looked, .call function this arguments))
      (called : Run host looked asked inner (Action.final (host function this arguments) looked))
      (next : Run host (Action.final (host function this arguments) looked) rest events after) :
      Run host realm (request :: rest) (inner ++ events) after

variable {host : Host} {realm after : Realm} {requests : List Request}
  {events : List (Request × Reply)} {chart : Chart} {views : Views} {view : Object.View}
  {handle : Handle}

/-- A run ends in the realm that its requests lead to. -/
theorem Run.after_eq (run : Run host realm requests events after) :
    realm.after host requests = after := by
  have first : ∀ {realm looked : Realm} {request : Request} {pursuit : Pursuit} (rest : List Request),
      request.pursue realm = (looked, pursuit) →
      realm.after host (request :: rest) = (pursuit.after host looked).after host rest := by
    intro realm looked request pursuit rest pursued
    have same := request.after_pursue host realm
    rw [pursued] at same
    rw [same]
    rfl
  induction run with
  | nil realm => rfl
  | direct direct live next ih => exact ih
  | nothing indirect live pursued next ih => exact (first _ pursued).trans ih
  | ask indirect live pursued next ih => exact (first _ pursued).trans ih
  | call indirect live pursued called next _ ih => exact (first _ pursued).trans ih

/-- Whether no request calls a native function and all pass live handles. -/
def passesLive (host : Host) : Realm → List Request → Bool
  | _, [] => true
  | realm, request :: rest =>
    request.isDirect && request.handles.all (fun handle => realm.objects.contains handle)
      && passesLive host (request.outcome host realm).2 rest

/-- A program that calls no native function runs if it passes live handles. -/
theorem Run.of_passesLive (passes : passesLive host realm requests = true) :
    Run host realm requests (requests.zip (realm.replies host requests))
      (realm.after host requests) := by
  induction requests generalizing realm with
  | nil => exact .nil realm
  | cons request rest ih =>
    rw [passesLive, Bool.and_eq_true, Bool.and_eq_true, List.all_eq_true] at passes
    exact .direct passes.1.1 passes.1.2 (ih passes.2)

/-! ### The start -/

/-- A new realm has no objects. -/
theorem holds_ofConfig (config : Config) :
    ∃ chart : Chart, (ofConfig config).Holds chart fun _ => none := by
  let empty : Shapes := { Shapes.ofCapacity config.initialSlotCapacity with issued := 2 }
  have charted : empty.Charted fun _ => {} :=
    ⟨Arena.sound_empty, fun handle shape found => absurd found.symm (Option.some_ne_none _)⟩
  have first := charted.alloc (Shapes.placed_root empty _ Nat.zero_lt_two)
  have second := first.alloc (Shapes.placed_root _ _ Nat.one_lt_two)
  let chart : Chart := ⟨(ofConfig config).shapes, _, second⟩
  have layouts : ∀ handle, chart.layouts handle = {} := by
    intro handle
    unfold chart
    simp only [Function.update_apply, ite_self]
  refine ⟨chart, ?_⟩
  exact {
    shapes := rfl
    sound := Arena.sound_empty
    view := fun _ _ found => absurd found.symm (Option.some_ne_none _)
    gone := fun _ _ => rfl
    apart := fun _ _ _ _ found => absurd found.symm (Option.some_ne_none _)
    objectRoot := ⟨⟨Shape.root 0, rfl, rfl⟩, layouts _⟩
    arrayRoot := ⟨⟨Shape.root 1, rfl, rfl⟩, layouts _⟩ }

theorem valid_empty : Views.Valid fun _ => none where
  sound := fun _ _ found => absurd found.symm (Option.some_ne_none _)
  content := fun _ _ found => absurd found.symm (Option.some_ne_none _)
  prototype := fun _ _ found => absurd found.symm (Option.some_ne_none _)

/-! ### What is seen of a run -/

/-- Requests with their replies, each doing what is seen of it. -/
inductive Views.Trace : Views → List (Request × Reply) → Views → Prop where
  | nil (views : Views) : Trace views [] views
  | cons {views between after : Views} {request : Request} {reply : Reply}
      {events : List (Request × Reply)}
      (live : ∀ handle ∈ request.handles, views.Live handle)
      (step : views.Step request reply between) (next : Trace between events after) :
      Trace views ((request, reply) :: events) after

theorem Views.Trace.append {between later : Views} {more : List (Request × Reply)}
    (first : Views.Trace views events between) (second : Views.Trace between more later) :
    Views.Trace views (events ++ more) later := by
  induction first with
  | nil views => exact second
  | cons live step next ih => exact .cons live step (ih second)

/-- What an assignment does about an own property, or an inherited one when there is none. -/
def Assignment.choose (own inherited : Option Descriptor) (extensible : Bool) : Assignment :=
  match own with
  | some desc =>
    if desc.isAccessor then .ofSetter desc.setter
    else if desc.isWritable then .overwrite else .refused
  | none =>
    match inherited with
    | none => if extensible then .create else .refused
    | some desc =>
      if desc.isAccessor then .ofSetter desc.setter
      else if extensible && desc.isWritable then .create else .refused

/-- The decision about an assignment to an object. Nothing is searched for when there is an own
property. -/
def Views.decision (views : Views) (key : Key) (bound : Nat) (view : Object.View) :
    Except Fault Assignment :=
  match view.getOwn key with
  | some own => .ok (.choose (some own) none view.extensible)
  | none => (views.inherited key bound view).map fun inherited =>
      .choose none inherited view.extensible

theorem Views.decision_of_own {views : Views} {key : Key} {own : Descriptor}
    (found : view.getOwn key = some own) (bound : Nat) :
    views.decision key bound view = .ok (.choose (some own) none view.extensible) := by
  rw [Views.decision, found]

theorem Views.decision_of_inherited {views : Views} {key : Key} {bound : Nat}
    {inherited : Option Descriptor} (absent : view.getOwn key = none)
    (searched : views.inherited key bound view = .ok inherited) :
    views.decision key bound view = .ok (.choose none inherited view.extensible) := by
  rw [Views.decision, absent, searched]
  rfl

/-- Without a prototype there is nothing to be inherited. -/
theorem Views.decision_of_alone (alone : view.prototype = none) (views : Views) (key : Key)
    (bound : Nat) : views.decision key bound view =
      .ok (.choose (view.getOwn key) none view.extensible) := by
  cases own : view.getOwn key with
  | some desc => exact decision_of_own own bound
  | none => exact decision_of_inherited own (by rw [inherited, alone])

theorem Views.decision_eq_ok {views : Views} {key : Key} {bound : Nat} {chosen : Assignment}
    (decided : views.decision key bound view = .ok chosen) :
    ∃ inherited, chosen = .choose (view.getOwn key) inherited view.extensible ∧
      (view.getOwn key = none → views.inherited key bound view = .ok inherited) := by
  cases own : view.getOwn key with
  | some desc =>
    rw [Views.decision_of_own own] at decided
    exact ⟨none, (Except.ok.inj decided).symm, fun absent => by cases absent⟩
  | none =>
    cases searched : views.inherited key bound view with
    | ok inherited =>
      rw [Views.decision_of_inherited own searched] at decided
      exact ⟨inherited, (Except.ok.inj decided).symm, fun _ => rfl⟩
    | error fault =>
      rw [Views.decision, own, searched] at decided
      cases decided

theorem Views.fault_decision {views : Views} {key : Key} {bound : Nat} {fault : Fault}
    (stopped : views.decision key bound view = .error fault) : fault = .endless := by
  cases own : view.getOwn key with
  | some desc =>
    rw [decision_of_own own] at stopped
    cases stopped
  | none =>
    cases searched : views.inherited key bound view with
    | ok inherited =>
      rw [decision_of_inherited own searched] at stopped
      cases stopped
    | error other =>
      rw [decision, own, searched] at stopped
      cases stopped
      unfold inherited at searched
      split at searched
      · exact fault_search searched
      · cases searched

/-- The inherited property is searched for in a realm that shows the same views. -/
theorem Holds.assignment_searched (holds : realm.Holds chart views)
    (shown : views handle = some view) (chain : view.prototype = none ∨ views.Valid) (key : Key) :
    ∃ (looked later : Realm) (first last : Chart), looked.Holds first views ∧
      assignment handle key realm =
        Action.settled (views.decision key (looked.objects.capacity + 1) view) later ∧
      later.Holds last views := by
  obtain ⟨looked, first, ran, held⟩ := holds.getOwn_ok shown key
  unfold assignment Views.decision
  rw [Action.bind_ok ran]
  cases own : view.getOwn key with
  | some desc =>
    refine ⟨looked, looked, first, first, held, ?_, held⟩
    unfold Assignment.choose
    by_cases accessor : desc.isAccessor = true
    · simp only [if_pos accessor]
      rfl
    · simp only [if_neg accessor]
      rfl
  | none =>
    obtain ⟨object, found, objectHeld⟩ := held.find shown
    simp only
    rw [Action.bind_ok (fetch_ok found), objectHeld.prototype, objectHeld.extensible]
    unfold Views.inherited
    cases linked : view.prototype with
    | none => exact ⟨looked, looked, first, first, held, rfl, held⟩
    | some prototype =>
      have valid := chain.resolve_left fun none => Option.some_ne_none _ (linked.symm.trans none)
      obtain ⟨later, last, searched, heldLast⟩ :=
        held.getProperty_settled valid (valid.prototype handle view shown prototype linked) key
      simp only
      rw [Action.bind_apply, searched]
      refine ⟨looked, later, first, last, held, ?_, heldLast⟩
      cases views.search key (looked.objects.capacity + 1) prototype with
      | error fault => rfl
      | ok inherited =>
        cases inherited with
        | none => rfl
        | some desc =>
          simp only [Action.settled, Except.map, Assignment.choose]
          by_cases accessor : desc.isAccessor = true
          · simp only [if_pos accessor]
            rfl
          · simp only [if_neg accessor]
            rfl

theorem Holds.assignment_settled (holds : realm.Holds chart views)
    (shown : views handle = some view) (chain : view.prototype = none ∨ views.Valid) (key : Key) :
    ∃ (bound : Nat) (later : Realm) (after : Chart),
      assignment handle key realm = Action.settled (views.decision key bound view) later ∧
      later.Holds after views := by
  obtain ⟨_, later, _, last, _, ran, held⟩ := holds.assignment_searched shown chain key
  exact ⟨_, later, last, ran, held⟩

/-- Looking a property up changes nothing that is seen. -/
theorem Holds.pursue {request : Request} (holds : realm.Holds chart views) (valid : views.Valid)
    (live : ∀ handle ∈ request.handles, views.Live handle) :
    ∃ after : Chart, (request.pursue realm).1.Holds after views := by
  cases request with
  | read object key =>
    obtain ⟨later, after, ran, held⟩ :=
      holds.getProperty_settled valid (live object (List.mem_singleton_self object)) key
    refine ⟨after, ?_⟩
    rw [Request.pursue, Request.fst_lookUp, Action.final_settled ran]
    exact held
  | put object key value raises =>
    obtain ⟨view, shown⟩ := live object (List.mem_cons_self ..)
    obtain ⟨_, later, after, ran, held⟩ := holds.assignment_settled shown (Or.inr valid) key
    refine ⟨after, ?_⟩
    rw [Request.pursue, Request.fst_lookUp, Action.final_settled ran]
    exact held
  | _ => exact ⟨chart, holds⟩

/-- A run does what is seen of its events. -/
theorem Run.simulate (run : Run host realm requests events after) (holds : realm.Holds chart views)
    (valid : views.Valid) :
    ∃ (last : Chart) (later : Views),
      views.Trace events later ∧ after.Holds last later ∧ later.Valid := by
  have looked : ∀ {realm looked : Realm} {request : Request} {pursuit : Pursuit} {chart : Chart}
      {views : Views}, realm.Holds chart views → views.Valid →
      (∀ handle ∈ request.handles, realm.objects.contains handle = true) →
      request.pursue realm = (looked, pursuit) → ∃ after : Chart, looked.Holds after views := by
    intro realm looked request pursuit chart views holds valid live pursued
    obtain ⟨after, held⟩ := holds.pursue valid fun handle member =>
      holds.live_iff.mpr (live handle member)
    rw [pursued] at held
    exact ⟨after, held⟩
  induction run generalizing chart views with
  | nil realm => exact ⟨chart, views, .nil views, holds, valid⟩
  | @direct realm after request rest events direct live next ih =>
    have liveViews : ∀ handle ∈ request.handles, views.Live handle :=
      fun handle member => holds.live_iff.mpr (live handle member)
    obtain ⟨between, seen, step, held, validBetween⟩ := holds.step host valid liveViews direct
    obtain ⟨last, later, trace, heldLast, validLast⟩ := ih held validBetween
    exact ⟨last, later, .cons liveViews step trace, heldLast, validLast⟩
  | nothing indirect live pursued next ih =>
    obtain ⟨between, held⟩ := looked holds valid live pursued
    exact ih held valid
  | ask indirect live pursued next ih =>
    obtain ⟨between, held⟩ := looked holds valid live pursued
    exact ih held valid
  | call indirect live pursued called next ihCalled ih =>
    obtain ⟨between, held⟩ := looked holds valid live pursued
    obtain ⟨_, seen, inner, heldCalled, validCalled⟩ := ihCalled held valid
    obtain ⟨last, later, trace, heldLast, validLast⟩ := ih heldCalled validCalled
    exact ⟨last, later, inner.append trace, heldLast, validLast⟩

/-- A run from the start shows valid views. -/
theorem Run.holds {config : Config} (run : Run host (ofConfig config) requests events after) :
    ∃ (chart : Chart) (views : Views),
      Views.Trace (fun _ => none) events views ∧ after.Holds chart views ∧ views.Valid := by
  obtain ⟨chart, holds⟩ := holds_ofConfig config
  exact run.simulate holds valid_empty

end Realm

end HiddenClass
