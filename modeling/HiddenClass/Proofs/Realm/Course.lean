import HiddenClass.Proofs.Realm.LookUp

/-!
Courses: runs laid out flat. A request that calls no native function is one turn. One that does is a
turn up to the call, and the requests of the function are the turns that follow.
-/

namespace HiddenClass

/-- One turn of a run. -/
inductive Turn where
  /-- A request is carried out. -/
  | make (request : Request)
  /-- A property is looked up to find what a request comes to, and no more. -/
  | lookUp (request : Request)
deriving Repr

namespace Request

/-- Whether all objects that the request names are live. Among the roots of a collection there may be
others, unless one of them takes the place of a live object. -/
def namesLive (realm : Realm) : Request → Bool
  | .collect roots => realm.objects.handles.all fun handle =>
    (roots.find? fun root => root.index = handle.index).all fun first => first = handle
  | request => request.handles.all fun handle => realm.objects.contains handle

/-- Whether the request comes to the call of a native function. -/
def callsNative (realm : Realm) (request : Request) : Bool :=
  match (request.pursue realm).2 with
  | .call .. => true
  | _ => false

variable {host : Host} {realm : Realm} {request next : Request}

theorem namesLive_of_live (live : ∀ handle ∈ request.handles, realm.objects.contains handle = true) :
    request.namesLive realm = true := by
  cases request with
  | collect roots =>
    apply List.all_eq_true.mpr
    intro handle listed
    rw [Option.all_eq_true]
    intro first found
    have index : first.index = handle.index := by simpa using List.find?_some found
    exact decide_eq_true (Arena.eq_of_index_eq (live first (List.mem_of_find?_eq_some found))
      (Arena.mem_handles.mp listed) index)
  | _ => exact List.all_eq_true.mpr live

theorem live_of_namesLive (named : request.namesLive realm = true)
    (staying : ∀ roots, request ≠ .collect roots) :
    ∀ handle ∈ request.handles, realm.objects.contains handle = true := by
  cases request with
  | collect roots => exact absurd rfl (staying roots)
  | _ => exact List.all_eq_true.mp named

theorem pursue_direct (direct : request.isDirect = true) (realm : Realm) :
    request.pursue realm = (realm, .ask request) := by
  cases request <;> first | rfl | cases direct

theorem decided_of_ask {α : Type} {action : Realm.Action α} {decide : α → Pursuit}
    (asked : (lookUp action decide realm).2 = .ask next) : ∃ answer, decide answer = .ask next := by
  unfold lookUp at asked
  cases ran : action realm with
  | ok answer looked =>
    rw [ran] at asked
    exact ⟨answer, asked⟩
  | error fault looked =>
    rw [ran] at asked
    cases asked

/-- What a request comes to when it comes to another one. -/
theorem of_ask (asked : (request.pursue realm).2 = .ask next) :
    (request.isDirect = true ∧ next = request) ∨
      ∃ object key value raises desc, request = .put object key value raises ∧
        next = .define object key desc raises ∧ (desc = .assignment value ∨ desc = .plain value) := by
  have silent : ∀ accessor this arguments, Pursuit.ofAccessor accessor this arguments ≠ .ask next := by
    intro accessor this arguments same
    cases accessor <;> cases same
  cases request with
  | read object key =>
    obtain ⟨found, decided⟩ := decided_of_ask asked
    unfold Pursuit.ofRead at decided
    cases found with
    | none => cases decided
    | some desc =>
      simp only at decided
      split at decided
      · exact absurd decided (silent _ _ _)
      · cases decided
  | put object key value raises =>
    obtain ⟨assignment, decided⟩ := decided_of_ask asked
    cases assignment with
    | refused => cases decided
    | setter function => exact absurd decided (silent _ _ _)
    | overwrite =>
      cases decided
      exact Or.inr ⟨object, key, value, raises, _, rfl, rfl, Or.inl rfl⟩
    | create =>
      cases decided
      exact Or.inr ⟨object, key, value, raises, _, rfl, rfl, Or.inr rfl⟩
  | _ =>
    cases asked
    exact Or.inl ⟨rfl, rfl⟩

theorem direct_of_ask (asked : (request.pursue realm).2 = .ask next) : next.isDirect = true := by
  rcases of_ask asked with ⟨direct, rfl⟩ | ⟨object, key, value, raises, desc, _, rfl, _⟩
  · exact direct
  · rfl

/-- No further objects are named on the way. -/
theorem handles_of_ask (asked : (request.pursue realm).2 = .ask next) :
    ∀ handle ∈ next.handles, handle ∈ request.handles := by
  rcases of_ask asked with ⟨_, rfl⟩ | ⟨object, key, value, raises, desc, rfl, rfl, rfl | rfl⟩
  · exact fun _ member => member
  · simp [handles, Descriptor.handles, Descriptor.assignment, Descriptor.data, Value.handles]
  · simp [handles, Descriptor.handles, Descriptor.plain, Descriptor.data, Value.handles]

/-- An assignment that comes to another request is a definition of the object that it is made on. -/
theorem assign_of_ask {object : Handle} {key : Key} {value : Value} {raises : Bool} (host : Host)
    (asked : ((Request.put object key value raises).pursue realm).2 = .ask next) :
    ∃ desc, next = .define object key desc raises ∧
      (desc = .assignment value ∨ desc = .plain value) ∧
      Realm.assign host object key value realm = Realm.onObject object (Object.define key desc)
        ((Request.put object key value raises).pursue realm).1 := by
  have pursued : (Request.put object key value raises).pursue realm =
      lookUp (Realm.assignment object key) (.ofAssignment object key value raises) realm := rfl
  rw [pursued] at asked ⊢
  unfold lookUp at asked ⊢
  cases decided : Realm.assignment object key realm with
  | error fault looked =>
    rw [decided] at asked
    cases asked
  | ok assignment looked =>
    rw [decided] at asked
    unfold Realm.assign
    rw [Action.bind_ok decided]
    cases assignment with
    | refused => cases asked
    | setter function =>
      unfold Pursuit.ofAssignment Pursuit.ofAccessor at asked
      simp only at asked
      split at asked <;> cases asked
    | overwrite =>
      cases asked
      exact ⟨_, rfl, Or.inl rfl, rfl⟩
    | create =>
      cases asked
      exact ⟨_, rfl, Or.inr rfl, rfl⟩

/-- A request that comes to another one ends as that one does. -/
theorem outcome_of_ask (host : Host) (asked : (request.pursue realm).2 = .ask next) :
    request.outcome host realm = next.outcome host (request.pursue realm).1 := by
  rcases of_ask asked with ⟨direct, rfl⟩ | ⟨object, key, value, raises, _, rfl, _, _⟩
  · rw [pursue_direct direct]
  · obtain ⟨desc, rfl, _, assigned⟩ := assign_of_ask host asked
    exact Realm.outcome_put_of_define assigned raises

/-- Without a call, a request is done once its property has been looked up, or is another request
then. -/
theorem outcome_of_silent (host : Host) (silent : request.callsNative realm = false) :
    (request.outcome host realm).2 = (request.pursue realm).1 ∨
      ∃ next, (request.pursue realm).2 = .ask next ∧
        (request.outcome host realm).2 = (next.outcome host (request.pursue realm).1).2 := by
  rw [← after_pursue]
  unfold callsNative at silent
  cases pursued : (request.pursue realm).2 with
  | nothing => exact Or.inl rfl
  | ask next => exact Or.inr ⟨next, rfl, rfl⟩
  | call function this arguments =>
    rw [pursued] at silent
    cases silent

end Request

namespace Turn

def request : Turn → Request
  | .make request | .lookUp request => request

def after (host : Host) (realm : Realm) : Turn → Realm
  | .make request => (request.outcome host realm).2
  | .lookUp request => (request.pursue realm).1

/-- A turn names live objects only, and a request is not carried out as one turn if it calls a native
function. -/
def isLawful (realm : Realm) : Turn → Bool
  | .make request => request.namesLive realm && !request.callsNative realm
  | .lookUp request => request.namesLive realm

/-- Whether the turn stops at a sum that is no machine word. -/
def overflows (host : Host) (realm : Realm) : Turn → Bool
  | .make request => (request.outcome host realm).1 = .stopped .overflow
  | .lookUp _ => false

variable {host : Host} {realm : Realm} {turn : Turn}

theorem namesLive_of_lawful (lawful : turn.isLawful realm = true) :
    turn.request.namesLive realm = true := by
  cases turn with
  | make request => exact (Bool.and_eq_true_iff.mp lawful).1
  | lookUp request => exact lawful

/-- A turn is a look-up, with a direct request after it or with nothing. -/
theorem after_of_lawful (host : Host) (lawful : turn.isLawful realm = true) :
    turn.after host realm = (turn.request.pursue realm).1 ∨
      ∃ next, (turn.request.pursue realm).2 = .ask next ∧
        turn.after host realm = (next.outcome host (turn.request.pursue realm).1).2 := by
  cases turn with
  | make request =>
    have silent := (Bool.and_eq_true_iff.mp lawful).2
    rw [Bool.not_eq_true'] at silent
    exact Request.outcome_of_silent host silent
  | lookUp request => exact Or.inl rfl

end Turn

namespace Realm

/-- The realm after the turns. -/
def course (host : Host) (realm : Realm) (turns : List Turn) : Realm :=
  turns.foldl (fun realm turn => turn.after host realm) realm

/-- Whether all turns are lawful. To hold on to the objects that it names is the program's part of the
contract with a realm. Where it does not, a request stops at a cell that is gone. -/
def lawful (host : Host) : Realm → List Turn → Bool
  | _, [] => true
  | realm, turn :: rest => turn.isLawful realm && lawful host (turn.after host realm) rest

/-- Whether none of the turns overflows. One that does ends the program, and what is laid out after it
never takes place. -/
def uninterrupted (host : Host) : Realm → List Turn → Bool
  | _, [] => true
  | realm, turn :: rest =>
    !turn.overflows host realm && uninterrupted host (turn.after host realm) rest

/-- Whether an object is live after each of the turns. -/
def survives (host : Host) (object : Handle) : Realm → List Turn → Bool
  | _, [] => true
  | realm, turn :: rest =>
    (turn.after host realm).objects.contains object &&
      survives host object (turn.after host realm) rest

variable {host : Host} {realm after : Realm} {turn : Turn} {turns later : List Turn}
  {object : Handle} {requests : List Request} {events : List (Request × Reply)} {chart : Chart}
  {views : Views}

theorem course_cons (host : Host) (realm : Realm) (turn : Turn) (turns : List Turn) :
    realm.course host (turn :: turns) = (turn.after host realm).course host turns := rfl

theorem course_append (host : Host) (realm : Realm) (turns later : List Turn) :
    realm.course host (turns ++ later) = (realm.course host turns).course host later :=
  List.foldl_append

theorem lawful_cons : realm.lawful host (turn :: turns) = true ↔
    turn.isLawful realm = true ∧ (turn.after host realm).lawful host turns = true :=
  Bool.and_eq_true_iff

theorem lawful_append : realm.lawful host (turns ++ later) = true ↔
    realm.lawful host turns = true ∧ (realm.course host turns).lawful host later = true := by
  induction turns generalizing realm with
  | nil => simp [lawful, course]
  | cons turn rest ih => rw [List.cons_append, lawful_cons, lawful_cons, ih, and_assoc, course_cons]

theorem uninterrupted_cons : realm.uninterrupted host (turn :: turns) = true ↔
    turn.overflows host realm = false ∧ (turn.after host realm).uninterrupted host turns = true := by
  rw [uninterrupted, Bool.and_eq_true, Bool.not_eq_true']

theorem survives_cons : realm.survives host object (turn :: turns) = true ↔
    (turn.after host realm).objects.contains object = true ∧
      (turn.after host realm).survives host object turns = true :=
  Bool.and_eq_true_iff

/-- Every run can be laid out flat. -/
theorem Run.course (run : Run host realm requests events after) :
    ∃ turns, realm.lawful host turns = true ∧ realm.course host turns = after := by
  induction run with
  | nil realm => exact ⟨[], rfl, rfl⟩
  | @direct realm after request rest events direct live next ih =>
    obtain ⟨turns, lawful, rfl⟩ := ih
    have silent : request.callsNative realm = false := by
      rw [Request.callsNative, Request.pursue_direct direct]
    refine ⟨.make request :: turns, lawful_cons.mpr ⟨?_, lawful⟩, rfl⟩
    rw [Turn.isLawful, silent, Request.namesLive_of_live live]
    rfl
  | @nothing realm looked after request rest events indirect live pursued next ih =>
    obtain ⟨turns, lawful, rfl⟩ := ih
    have reached : (Turn.lookUp request).after host realm = looked := congrArg Prod.fst pursued
    refine ⟨.lookUp request :: turns, lawful_cons.mpr ⟨Request.namesLive_of_live live, ?_⟩, ?_⟩
    · rw [reached]
      exact lawful
    · rw [course_cons, reached]
  | @ask realm looked after request pursuit rest events indirect live pursued next ih =>
    obtain ⟨turns, lawful, rfl⟩ := ih
    have reached : (Turn.lookUp request).after host realm = looked := congrArg Prod.fst pursued
    refine ⟨.lookUp request :: turns, lawful_cons.mpr ⟨Request.namesLive_of_live live, ?_⟩, ?_⟩
    · rw [reached]
      exact lawful
    · rw [course_cons, reached]
  | @call realm looked after request function this arguments asked rest inner events indirect live
      pursued called next ihCalled ih =>
    obtain ⟨inside, lawfulInside, returned⟩ := ihCalled
    obtain ⟨turns, lawful, rfl⟩ := ih
    have reached : (Turn.lookUp request).after host realm = looked := congrArg Prod.fst pursued
    refine ⟨.lookUp request :: (inside ++ turns), lawful_cons.mpr
      ⟨Request.namesLive_of_live live, ?_⟩, ?_⟩
    · rw [reached, lawful_append, returned]
      exact ⟨lawfulInside, lawful⟩
    · rw [course_cons, reached, course_append, returned]

/-! ### What a course shows -/

/-- A root that is gone shadows nothing unless it takes the place of a live object. -/
theorem Holds.clear {roots : List Handle} (holds : realm.Holds chart views)
    (named : (Request.collect roots).namesLive realm = true) :
    realm.Clear (realm.rootCells roots) := by
  intro cell alive shadowed
  cases cell with
  | object handle =>
    obtain ⟨first, found, different⟩ := shadowed_object.mp shadowed
    have own := List.all_eq_true.mp named handle (Arena.mem_handles.mpr alive)
    rw [found, Option.all_some] at own
    exact different (of_decide_eq_true own)
  | shape handle =>
    obtain ⟨first, found, different⟩ := shadowed
    have same : first.place = (Cell.shape handle).place := by simpa using List.find?_some found
    apply different
    rcases List.mem_append.mp (List.mem_of_find?_eq_some found) with listed | own
    · obtain ⟨root, _, rfl⟩ := List.mem_map.mp listed
      cases same
    · have present : realm.Alive first := by
        rcases List.mem_cons.mp own with rfl | last
        · exact holds.alive_shape.mpr holds.objectRoot.1.live
        · rw [List.mem_singleton.mp last]
          exact holds.alive_shape.mpr holds.arrayRoot.1.live
      exact present.eq_of_place_eq alive same

/-- A turn shows nothing of itself, or is carried out and does what the request that it comes to does. -/
theorem Holds.takeTurn (holds : realm.Holds chart views) (valid : views.Valid) (host : Host)
    (lawful : turn.isLawful realm = true) :
    ∃ (after : Chart) (later : Views), (turn.after host realm).Holds after later ∧ later.Valid ∧
      (later = views ∨ ∃ request next, turn = .make request ∧
        (request.pursue realm).2 = .ask next ∧
        views.Step next (request.outcome host realm).1 later) := by
  have named := Turn.namesLive_of_lawful lawful
  by_cases collecting : ∃ roots, turn.request = .collect roots
  · obtain ⟨roots, same⟩ := collecting
    rw [same] at named
    cases turn with
    | lookUp request =>
      cases same
      exact ⟨chart, views, holds, valid, Or.inl rfl⟩
    | make request =>
      cases same
      obtain ⟨after, later, step, held, validAfter⟩ :=
        holds.step_collect valid (holds.clear named) host
      exact ⟨after, later, held, validAfter, Or.inr ⟨_, .collect roots, rfl, rfl, step⟩⟩
  · have live : ∀ handle ∈ turn.request.handles, views.Live handle := by
      intro handle member
      have contained := Request.live_of_namesLive named (fun roots same => collecting ⟨roots, same⟩)
      exact holds.live_iff.mpr (contained handle member)
    obtain ⟨between, looked⟩ := holds.pursue valid live
    cases turn with
    | lookUp request => exact ⟨between, views, looked, valid, Or.inl rfl⟩
    | make request =>
      have silent := (Bool.and_eq_true_iff.mp lawful).2
      rw [Bool.not_eq_true'] at silent
      change ∃ after later, (request.outcome host realm).2.Holds after later ∧ _
      change (request.pursue realm).1.Holds between views at looked
      rcases Request.outcome_of_silent host silent with same | ⟨next, asked, _⟩
      · rw [same]
        exact ⟨between, views, looked, valid, Or.inl rfl⟩
      · have ended := Request.outcome_of_ask host asked
        obtain ⟨after, later, step, held, validAfter⟩ := looked.step host valid
          (fun handle member => live handle (Request.handles_of_ask asked handle member))
          (Request.direct_of_ask asked)
        rw [← ended] at step held
        exact ⟨after, later, held, validAfter, Or.inr ⟨request, next, rfl, asked, step⟩⟩

theorem Holds.course (holds : realm.Holds chart views) (valid : views.Valid)
    (lawful : realm.lawful host turns = true) :
    ∃ (after : Chart) (later : Views), (realm.course host turns).Holds after later ∧ later.Valid := by
  induction turns generalizing realm chart views with
  | nil => exact ⟨chart, views, holds, valid⟩
  | cons turn rest ih =>
    obtain ⟨first, others⟩ := lawful_cons.mp lawful
    obtain ⟨between, seen, held, validBetween, _⟩ := holds.takeTurn valid host first
    exact ih held validBetween others

theorem holds_course {config : Config} (lawful : (ofConfig config).lawful host turns = true) :
    ∃ (chart : Chart) (views : Views),
      ((ofConfig config).course host turns).Holds chart views ∧ views.Valid := by
  obtain ⟨chart, holds⟩ := holds_ofConfig config
  exact holds.course valid_empty lawful

end Realm

end HiddenClass
