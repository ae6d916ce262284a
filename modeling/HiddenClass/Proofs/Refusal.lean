import HiddenClass.Proofs.Elements.Refused
import HiddenClass.Proofs.Lineage
import HiddenClass.Proofs.Permanence
import HiddenClass.Proofs.Realm.Sight

/-!
What is refused changes nothing that can be seen of any object. Only an array that is to be shortened
may be left at another length.
-/

namespace HiddenClass

variable {key : Key} {desc : Descriptor} {extensible : Bool}

namespace Object.Content

variable {content : Content} {bound : Nat} {doomed : List Nat}

/-- Where a definition is refused and still leaves another object, a property stopped the object, an
array, from being shortened. -/
theorem define_refused (sound : content.Sound)
    (refused : (content.define bound doomed key desc extensible).1 ≠ .ok .accepted) :
    (content.define bound doomed key desc extensible).2 = content ∨
      key = Key.length ∧ ∃ array length index, content = .array array ∧
        array.Stops doomed desc length index := by
  cases content with
  | ordinary record =>
    have kept : (record.define key desc extensible).2 = record :=
      Record.define_refused fun accepted => refused (congrArg Except.ok accepted)
    exact Or.inl (congrArg Content.ordinary kept)
  | array view =>
    unfold Content.define at refused ⊢
    cases role : key.role with
    | element index =>
      simp only [role] at refused ⊢
      have kept : (view.define bound index desc extensible).2 = view :=
        Elements.View.define_refused sound fun accepted => refused (congrArg Except.ok accepted)
      exact Or.inl (congrArg Content.array kept)
    | length =>
      simp only [role] at refused ⊢
      rcases Elements.View.defineLength_refused sound refused with kept | ⟨length, index, stops⟩
      · exact Or.inl (congrArg Content.array kept)
      · exact Or.inr ⟨Key.of_role_length role, view, length, index, rfl, stops⟩
    | name =>
      simp only [role] at refused ⊢
      have kept : (view.record.define key desc extensible).2 = view.record :=
        Record.define_refused fun accepted => refused (congrArg Except.ok accepted)
      rw [kept]
      exact Or.inl rfl

theorem delete_refused (refused : (content.delete key).1 ≠ .accepted) :
    (content.delete key).2 = content := by
  cases content with
  | ordinary record => exact congrArg Content.ordinary (Record.delete_refused refused)
  | array view =>
    unfold Content.delete at refused ⊢
    cases role : key.role with
    | element index =>
      simp only [role] at refused ⊢
      exact congrArg Content.array (Elements.View.delete_refused refused)
    | length => rfl
    | name =>
      simp only [role] at refused ⊢
      rw [Record.delete_refused refused]

end Object.Content

/-! ### Requests that are refused -/

namespace Request

/-- The length that an array is asked to take. -/
def soughtLength : Request → Option Nat
  | .put _ key value _ => if key = Key.length then Elements.lengthOf? value else none
  | .define _ key desc _ =>
    if key = Key.length ∧ desc.lacksValue = false then Elements.lengthOf? desc.value else none
  | _ => none

/-- What an object answers, before it is reported as `false` or as an error. -/
def verdict (host : Host) (realm : Realm) : Request → Option Verdict
  | .put object key value _ => (Realm.assign host object key value).answer? realm
  | .define object key desc _ => (Realm.onObject object (Object.define key desc)).answer? realm
  | .delete object key _ => (Realm.onObject object (Object.delete key)).answer? realm
  | _ => none

end Request

namespace Realm

variable {host : Host} {realm : Realm} {chart : Chart} {views : Views} {object : Handle}
  {view : Object.View} {request : Request} {raises : Bool} {turns : List Turn} {length index : Nat}

/-- An array is not shortened to a length because of an own property at or past it that is not
configurable. Where there is no length above that property, the request stops at the overflow. -/
structure Stops (host : Host) (realm : Realm) (object : Handle) (request : Request)
    (length index : Nat) : Prop where
  verdict : index < Key.indexBound →
    request.verdict host realm = some (.rejected .shrinkStopped)
  overflow : Key.indexBound ≤ index → (request.outcome host realm).1 = .stopped .overflow
  sought : request.soughtLength = some length
  shorter : ∃ traits array, realm.sight.traits object = some traits ∧
    traits.array = some array ∧ length < array.length
  above : length ≤ index
  fixed : ∃ own, realm.sight.own object (.index index) = some (some own) ∧
    own.isConfigurable = false

theorem Holds.stops {array : Elements.View} {doomed : List Nat} (holds : realm.Holds chart views)
    (shown : views object = some view) (sound : view.content.Sound)
    (content : view.content = .array array) (stops : array.Stops doomed desc length index)
    (listed : array.Doomed length array.length doomed)
    (verdict : index < Key.indexBound →
      request.verdict host realm = some (.rejected .shrinkStopped))
    (overflow : Key.indexBound ≤ index → (request.outcome host realm).1 = .stopped .overflow)
    (sought : request.soughtLength = some length) :
    realm.Stops host object request length index := by
  obtain ⟨slot, stored, fixed⟩ := stops.fixed
  obtain ⟨cell, found, held⟩ := holds.find shown
  obtain ⟨_, _, ran, _⟩ := holds.getOwn_ok shown (.index index)
  rw [content] at sound
  have own : view.getOwn (.index index) = some slot.toDescriptor := by
    rw [Object.View.getOwn, content]
    exact Object.getOwn_of_stored sound stored
  refine ⟨verdict, overflow, sought, ⟨view.traits, array.traits, ?_, ?_, stops.shorter⟩,
    listed.above index stops.listed, slot.toDescriptor, ?_, ?_⟩
  · show (realm.objects.get? object).map Object.traits = some view.traits
    rw [found, Option.map_some, held.traits_eq]
  · unfold Object.View.traits
    rw [content]
  · show (getOwn object (.index index)).answer? realm = some (some slot.toDescriptor)
    rw [Action.answer?_ok ran, own]
  · exact (Slot.configurable_toDescriptor slot).trans fixed

theorem not_accepted {verdict : Except Fault Verdict}
    (refused : Reply.ofVerdict raises verdict ≠ .answered (.accepted true)) :
    verdict ≠ .ok .accepted := by
  intro accepted
  rw [accepted] at refused
  exact refused rfl

theorem Holds.refused_define (holds : realm.Holds chart views) (shown : views object = some view)
    (sound : view.content.Sound)
    (refused : ((Request.define object key desc raises).outcome host realm).1 ≠
      .answered (.accepted true)) :
    (∃ after, ((Request.define object key desc raises).outcome host realm).2.Holds after views) ∨
      key = Key.length ∧ ∃ array doomed length index, view.content = .array array ∧
        array.Stops doomed desc length index ∧ array.Doomed length array.length doomed ∧
        ∃ later, onObject object (Object.define key desc) realm =
          Action.settled (Elements.View.stopping index) later := by
  obtain ⟨cell, found, seen⟩ := holds.find shown
  obtain ⟨bound, doomed, listed, concludes⟩ := seen.define sound key desc
  obtain ⟨later, after, ran, held⟩ := holds.onObject_ok found concludes
  rw [outcome_report ran raises rfl] at refused ⊢
  rcases Object.Content.define_refused sound (not_accepted refused) with
    kept | ⟨rfl, array, length, index, content, stops⟩
  · have same : (view.define bound doomed key desc).2 = view := by
      unfold Object.View.define
      simp only [kept]
    rw [same, update_self views shown] at held
    exact Or.inl ⟨after, held⟩
  · have bounds := listed length rfl stops.sought
    have answer : (view.define bound doomed Key.length desc).1 =
        Elements.View.stopping index := by
      unfold Object.View.define
      rw [content]
      exact stops.ending
    rw [content] at bounds
    rw [answer] at ran
    exact Or.inr ⟨rfl, array, doomed, length, index, content, stops, bounds, later, ran⟩

/-- What the object answers, and how the request ends, when the property at an index stays. -/
theorem answer?_of_stopping {action : Action Verdict} {later : Realm}
    (ran : action realm = Action.settled (Elements.View.stopping index) later)
    (small : index < Key.indexBound) : action.answer? realm = some (.rejected .shrinkStopped) := by
  rw [Elements.View.stopping, if_pos small] at ran
  exact Action.answer?_ok ran

theorem outcome_of_stopping {later : Realm}
    (ran : onObject object (Object.define key desc) realm =
      Action.settled (Elements.View.stopping index) later)
    (past : Key.indexBound ≤ index) (host : Host) (raises : Bool) :
    ((Request.define object key desc raises).outcome host realm).1 = .stopped .overflow := by
  rw [Elements.View.stopping, if_neg (Nat.not_lt.mpr past)] at ran
  rw [outcome_report ran raises rfl]
  rfl

theorem Holds.refused_delete (holds : realm.Holds chart views) (shown : views object = some view)
    (refused : ((Request.delete object key raises).outcome host realm).1 ≠
      .answered (.accepted true)) :
    ∃ after, ((Request.delete object key raises).outcome host realm).2.Holds after views := by
  obtain ⟨after, reply, held⟩ := holds.outcome_delete host shown key raises
  rw [reply] at refused
  have kept : (view.content.delete key).2 = view.content := by
    apply Object.Content.delete_refused
    intro accepted
    exact not_accepted refused (congrArg Except.ok accepted)
  have same : (view.delete key).2 = view := by
    unfold Object.View.delete
    simp only [kept]
  rw [same, update_self views shown] at held
  exact ⟨after, held⟩

/-- Looking up where an assignment goes shows nothing. -/
theorem Holds.pursue_put (holds : realm.Holds chart views) (valid : views.Valid)
    (shown : views object = some view) (key : Key) (value : Value) (raises : Bool) :
    ∃ after, ((Request.put object key value raises).pursue realm).1.Holds after views := by
  obtain ⟨_, later, after, ran, held⟩ := holds.assignment_settled shown (Or.inr valid) key
  refine ⟨after, ?_⟩
  rw [Request.pursue, Request.fst_lookUp, Action.final_settled ran]
  exact held

/-- At any moment of a course with live handles, a refused assignment, definition or deletion changes
nothing that can be seen of any object. The one exception is an array that could not be shortened as
far as it should be. -/
theorem sight_of_refused {config : Config}
    (lawful : (ofConfig config).lawful host turns = true)
    (live : ((ofConfig config).course host turns).objects.contains object = true)
    (edits : request.edits object = some key)
    (silent : request.callsNative ((ofConfig config).course host turns) = false)
    (refused : (request.outcome host ((ofConfig config).course host turns)).1 ≠
      .answered (.accepted true)) :
    (request.outcome host ((ofConfig config).course host turns)).2.sight =
        ((ofConfig config).course host turns).sight ∨
      key = Key.length ∧ ∃ length index,
        ((ofConfig config).course host turns).Stops host object request length index := by
  obtain ⟨chart, views, holds, valid⟩ := holds_course lawful
  generalize (ofConfig config).course host turns = realm at *
  obtain ⟨view, shown⟩ := holds.live_iff.mpr live
  have sound := valid.sound object view shown
  cases request with
  | put other name value raises =>
    obtain ⟨rfl, same⟩ := Option.ite_none_right_eq_some.mp edits
    cases same
    obtain ⟨between, looked⟩ := holds.pursue_put valid shown key value raises
    rcases Request.outcome_of_silent host silent with reached | ⟨next, asked, _⟩
    · rw [reached]
      exact Or.inl (holds.sight_eq looked)
    · rw [Request.outcome_of_ask host asked] at refused ⊢
      obtain ⟨desc, rfl, given, assigned⟩ := Request.assign_of_ask host asked
      rcases looked.refused_define shown sound refused with
        ⟨after, held⟩ | ⟨rfl, array, doomed, length, index, content, stops, listed, later, ran⟩
      · exact Or.inl (holds.sight_eq held)
      · have verdict : index < Key.indexBound →
            (Request.put other Key.length value raises).verdict host realm =
              some (.rejected .shrinkStopped) := answer?_of_stopping (assigned.trans ran)
        have overflow : Key.indexBound ≤ index →
            ((Request.put other Key.length value raises).outcome host realm).1 =
              .stopped .overflow := by
          intro past
          rw [Request.outcome_of_ask host asked]
          exact outcome_of_stopping ran past host raises
        have wanted : Elements.lengthOf? value = some length := by
          rcases given with rfl | rfl <;> exact stops.sought
        have sought : (Request.put other Key.length value raises).soughtLength = some length := by
          rw [Request.soughtLength, if_pos rfl, wanted]
        exact Or.inr ⟨rfl, length, index,
          holds.stops shown sound content stops listed verdict overflow sought⟩
  | define other name desc raises =>
    obtain ⟨rfl, same⟩ := Option.ite_none_right_eq_some.mp edits
    cases same
    rcases holds.refused_define shown sound refused with
      ⟨after, held⟩ | ⟨rfl, array, doomed, length, index, content, stops, listed, later, ran⟩
    · exact Or.inl (holds.sight_eq held)
    · have sought : (Request.define other Key.length desc raises).soughtLength = some length :=
        (if_pos ⟨rfl, stops.given⟩).trans stops.sought
      exact Or.inr ⟨rfl, length, index, holds.stops shown sound content stops listed
        (answer?_of_stopping ran) (fun past => outcome_of_stopping ran past host raises) sought⟩
  | delete other name raises =>
    obtain ⟨rfl, same⟩ := Option.ite_none_right_eq_some.mp edits
    cases same
    obtain ⟨after, held⟩ := holds.refused_delete shown refused
    exact Or.inl (holds.sight_eq held)
  | _ => cases edits

/-- An array of which one element is there to stay. -/
def obstructed : List Turn :=
  [.make (.newArray 4), .make (.put ⟨0, 0⟩ (.index 3) (.text "last") true),
    .make (.define ⟨0, 0⟩ (.index 1) (.data (.int 7) { enumerable := true }) true)]

theorem sight_of_refused_obstructed :
    let realm := (ofConfig {}).course Host.none obstructed
    let request := Request.define ⟨0, 0⟩ (.index 1) (.accessor (some .undefined) none {}) false
    (ofConfig {}).lawful Host.none obstructed = true ∧
      (request.outcome Host.none realm).1 = .answered (.accepted false) ∧
      (request.outcome Host.none realm).2.sight = realm.sight := by
  intro realm request
  have lawful : (ofConfig {}).lawful Host.none obstructed = true := by decide +kernel
  have live : realm.objects.contains ⟨0, 0⟩ = true := by decide +kernel
  have reply : (request.outcome Host.none realm).1 = .answered (.accepted false) := by
    decide +kernel
  have refused : (request.outcome Host.none realm).1 ≠ .answered (.accepted true) := by
    rw [reply]
    decide
  have edits : request.edits ⟨0, 0⟩ = some (.index 1) := rfl
  have silent : request.callsNative realm = false := rfl
  refine ⟨lawful, reply, ?_⟩
  apply (sight_of_refused lawful live edits silent refused).resolve_right
  rintro ⟨same, _⟩
  cases same

/-- An attempt to empty the array leaves it with the element at its end. -/
example :
    let realm := (ofConfig {}).course Host.none obstructed
    let request := Request.put ⟨0, 0⟩ .length (.int 0) false
    request.verdict Host.none realm = some (.rejected .shrinkStopped) ∧
      (((request.outcome Host.none realm).2.sight.traits ⟨0, 0⟩).bind Object.Traits.array).map
        Elements.Traits.length = some 2 := by
  decide +kernel

end Realm

end HiddenClass
