import HiddenClass.Proofs.Dwindling
import HiddenClass.Proofs.Raising

/-!
Whether an object may be extended makes no difference to the properties that it has. What is defined
or assigned there is accepted or refused alike, and leaves the same. So an object that is closed to
extensions only ever loses keys, and is otherwise treated as any other.
-/

namespace HiddenClass

namespace Action

variable {σ τ α β : Type} {state : σ} {change : σ → σ}

/-- A result with a change made to the state that is left. -/
def carry (change : σ → σ) : EStateM.Result Fault σ α → EStateM.Result Fault σ α
  | .ok answer after => .ok answer (change after)
  | .error fault after => .error fault (change after)

/-- The change makes no difference to the action, and shows in what is left as it did before. -/
def Heedless (change : σ → σ) (action : Action σ α) (state : σ) : Prop :=
  action (change state) = carry change (action state)

theorem heedless_pure (answer : α) : (pure answer : Action σ α).Heedless change state := rfl

theorem Heedless.bind {action : Action σ α} {next : α → Action σ β}
    (first : action.Heedless change state)
    (second : ∀ answer after, action state = .ok answer after →
      (next answer).Heedless change after) : (action >>= next).Heedless change state := by
  unfold Heedless
  rw [bind_apply, bind_apply, first]
  cases ran : action state with
  | ok answer after => exact second answer after ran
  | error fault after => rfl

theorem heedless_get {next : σ → Action σ β} (same : next (change state) = next state)
    (second : (next state).Heedless change state) : (get >>= next).Heedless change state := by
  unfold Heedless
  rw [bind_ok (get_apply _), bind_ok (get_apply _), same]
  exact second

/-- An action on a part of the state that the change does not touch. -/
theorem heedless_focus {view : σ → τ} {update : σ → τ → σ} (action : Action τ α)
    (seen : view (change state) = view state)
    (left : ∀ part, update (change state) part = change (update state part)) :
    (focus view update action).Heedless change state := by
  unfold Heedless focus
  rw [seen]
  cases action (view state) with
  | ok answer part => exact congrArg _ (left part)
  | error fault part => exact congrArg _ (left part)

theorem Heedless.report {action : Action σ Verdict} (first : action.Heedless change state)
    (raises : Bool) : (report raises action).Heedless change state := by
  refine first.bind fun verdict after _ => ?_
  cases verdict.report raises <;> rfl

/-- Another action that does the same with the change and without. -/
theorem Heedless.congr {action other : Action σ α} (heedless : other.Heedless change state)
    (here : action state = other state) (there : action (change state) = other (change state)) :
    action.Heedless change state := by
  unfold Heedless
  rw [here, there]
  exact heedless

end Action

/-! ### Objects -/

section Objects

variable {key : Key} {index : Nat} {chart : Chart} {α : Type}

/-- A definition of what is there does not ask whether anything may be added. -/
theorem Store.Holds.define_eq_of_own {store : Store} {record : Record}
    (holds : store.Holds chart record) (own : (record.find? key).isSome = true) (desc : Descriptor)
    (extensible : Bool) :
    Store.define key desc extensible ⟨store, chart.shapes⟩ =
      Store.define key desc true ⟨store, chart.shapes⟩ := by
  obtain ⟨after, _, ran⟩ := holds.find?_ok key
  unfold Store.define
  rw [Action.bind_ok ran, Action.bind_ok ran]
  cases found : record.layout.offset? key with
  | some offset => rfl
  | none =>
    rw [Record.find?_eq_none_iff.mpr found] at own
    cases own

namespace Elements

variable {elements : Elements} {store : Store} {view : View}

/-- A property at an index is stored there, or will be when its element has moved. -/
theorem View.stored_of_own (sound : view.Sound) (own : (view.getOwn index).isSome = true) :
    ((view.moveToStore index).stored index).isSome = true := by
  cases held : view.element index with
  | some current =>
    rw [stored_moveToStore sound held]
    rfl
  | none =>
    have peeked : view.peek index = none := by
      rw [View.peek, held]
      rfl
    rw [getOwn_of_absent peeked] at own
    split at own
    · cases own
    · rw [Option.isSome_map] at own
      rw [moveToStore_of_empty held]
      exact own

/-- An element that is to be written where there is a property was an element before. -/
theorem View.isSome_peek_of_own {desc : Descriptor} {value : Value} (sound : view.Sound)
    (small : index < Key.indexBound) (own : (view.getOwn index).isSome = true)
    (plain : view.plainValue index desc = some value) : (view.peek index).isSome = true := by
  by_contra missing
  have peeked := Option.not_isSome_iff_eq_none.mp missing
  rw [getOwn_of_absent peeked, stored_of_plainValue sound small plain] at own
  split at own <;> cases own

variable (holds : elements.Holds store chart view)
include holds

theorem Holds.defineStored_eq_of_own (sound : view.Sound) (own : (view.getOwn index).isSome = true)
    (desc : Descriptor) (extensible : Bool) :
    Elements.defineStored index desc extensible ⟨elements, store, chart.shapes⟩ =
      Elements.defineStored index desc true ⟨elements, store, chart.shapes⟩ := by
  obtain ⟨moved, kept, after, ran, held, _⟩ := holds.moveToStore index
  have same := held.store.define_eq_of_own (View.stored_of_own sound own) desc extensible
  have stored : onStore (Store.define (.index index) desc extensible) ⟨moved, kept, after.shapes⟩ =
      onStore (Store.define (.index index) desc true) ⟨moved, kept, after.shapes⟩ := by
    unfold onStore Action.focus
    simp only [same]
  unfold Elements.defineStored
  rw [Action.bind_ok ran, Action.bind_ok ran, Action.bind_apply, Action.bind_apply, stored]

theorem Holds.defineElement_eq_of_own (sound : view.Sound) (small : index < Key.indexBound)
    (own : (view.getOwn index).isSome = true) (desc : Descriptor) (extensible : Bool) :
    Elements.defineElement index desc extensible ⟨elements, store, chart.shapes⟩ =
      Elements.defineElement index desc true ⟨elements, store, chart.shapes⟩ := by
  obtain ⟨moved, kept, after, ran, held, _⟩ := holds.plainValue index desc
  unfold Elements.defineElement
  rw [Action.bind_ok ran, Action.bind_ok ran]
  cases plain : view.plainValue index desc with
  | none => exact held.defineStored_eq_of_own sound own desc extensible
  | some value =>
    obtain ⟨current, peeked⟩ :=
      Option.isSome_iff_exists.mp (View.isSome_peek_of_own sound small own plain)
    simp only
    rw [Action.bind_ok (Action.get_apply _), Action.bind_ok (Action.get_apply _), held.peek, peeked]
    rfl

theorem Holds.define_eq_of_own (sound : view.Sound) (small : index < Key.indexBound)
    (own : (view.getOwn index).isSome = true) (desc : Descriptor) (extensible : Bool) :
    Elements.define index desc extensible ⟨elements, store, chart.shapes⟩ =
      Elements.define index desc true ⟨elements, store, chart.shapes⟩ := by
  have same := holds.defineElement_eq_of_own sound small own desc extensible
  unfold Elements.define
  rw [Action.bind_ok (Action.get_apply _), Action.bind_ok (Action.get_apply _)]
  split
  · rfl
  · rw [Action.bind_apply, Action.bind_apply, same]

end Elements

namespace Object

/-- The object as if extensions of it had never been prevented. -/
def reopen (object : Object) : Object := { object with extensible := true }

def Context.reopen (context : Context) : Context := { context with object := context.object.reopen }

variable {object : Object} {view : View}

theorem heedless_onStore (action : Store.Action α) (context : Context) :
    (onStore action).Heedless Context.reopen context :=
  Action.heedless_focus action rfl fun _ => rfl

theorem heedless_onElements (elements : Elements) (action : Elements.Action α) (context : Context) :
    (onElements elements action).Heedless Context.reopen context :=
  Action.heedless_focus action rfl fun _ => rfl

theorem heedless_getOwn (key : Key) (context : Context) :
    (getOwn key).Heedless Context.reopen context := by
  apply Action.heedless_get rfl
  cases context.object.place key with
  | element elements index => exact heedless_onElements elements _ context
  | length elements => exact Action.heedless_pure _
  | store => exact (heedless_onStore _ context).bind fun _ _ _ => Action.heedless_pure _

theorem heedless_delete (key : Key) (context : Context) :
    (delete key).Heedless Context.reopen context := by
  apply Action.heedless_get rfl
  cases context.object.place key with
  | element elements index => exact heedless_onElements elements _ context
  | length elements => exact Action.heedless_pure _
  | store => exact heedless_onStore _ context

theorem Holds.heedless_stored {record : Record} (holds : object.store.Holds chart record)
    (place : object.place key = .store) (own : (record.find? key).isSome = true)
    (desc : Descriptor) :
    (Object.define key desc).Heedless Context.reopen ⟨object, chart.shapes⟩ := by
  have same := holds.define_eq_of_own own desc object.extensible
  apply (heedless_onStore (Store.define key desc true) _).congr
  · unfold Object.define onStore Action.focus
    rw [Action.bind_ok (Action.get_apply _)]
    simp only [place, same]
  · have placed : object.reopen.place key = .store := place
    unfold Object.define
    rw [Action.bind_ok (Action.get_apply _)]
    simp only [Context.reopen, placed]
    rfl

/-- A definition of what is there does not look at whether the object may be extended. -/
theorem Holds.heedless_define (holds : object.Holds chart view) (sound : view.content.Sound)
    (own : (view.getOwn key).isSome = true) (desc : Descriptor) :
    (Object.define key desc).Heedless Context.reopen ⟨object, chart.shapes⟩ := by
  obtain ⟨content, extensible, prototype⟩ := view
  have held := holds.content
  cases content with
  | ordinary record =>
    rw [View.getOwn, Content.getOwn, Option.isSome_map] at own
    exact Holds.heedless_stored held.2 (place_ordinary held.1 key) own desc
  | array array =>
    obtain ⟨elements, kind, held⟩ := held
    have place := place_array kind key
    cases role : key.role with
    | name =>
      simp only [role] at place
      rw [View.getOwn, Content.getOwn_name role, Option.isSome_map] at own
      exact Holds.heedless_stored held.store place own desc
    | length =>
      simp only [role] at place
      have placed : object.reopen.place key = .length elements := place
      apply (heedless_onElements elements (Elements.defineLength desc) _).congr
      · unfold Object.define
        rw [Action.bind_ok (Action.get_apply _)]
        simp only [place]
      · unfold Object.define
        rw [Action.bind_ok (Action.get_apply _)]
        simp only [Context.reopen, placed]
    | element index =>
      simp only [role] at place
      rw [View.getOwn, Content.getOwn_element role] at own
      have placed : object.reopen.place key = .element elements index := place
      have same :=
        held.define_eq_of_own sound (Key.of_role_element role).2 own desc object.extensible
      apply (heedless_onElements elements (Elements.define index desc true) _).congr
      · unfold Object.define onElements Action.focus
        rw [Action.bind_ok (Action.get_apply _)]
        simp only [place, same]
      · unfold Object.define
        rw [Action.bind_ok (Action.get_apply _)]
        simp only [Context.reopen, placed]
        rfl

end Object

end Objects

/-! ### Realms -/

theorem Arena.set_set {α : Type} (arena : Arena α) (handle : Handle) (first second : α) :
    (arena.set handle first).set handle second = arena.set handle second := by
  by_cases live : arena.contains handle = true
  · have still : (arena.set handle first).contains handle = true := by
      rw [contains_set]
      exact live
    unfold set at still ⊢
    rw [if_pos live] at still ⊢
    rw [if_pos still, if_pos live]
    congr 1
    apply Array.ext_getElem?
    intro index
    rw [Array.getElem?_modify, Array.getElem?_modify, Array.getElem?_modify]
    by_cases here : handle.index = index
    · simp only [if_pos here, Option.map_map]
      rfl
    · simp only [if_neg here]
  · have still : arena.set handle first = arena := by
      unfold set
      rw [if_neg live]
    rw [still]

namespace Realm

/-- The realm as if extensions of the object had never been prevented. -/
def reopen (object : Handle) (realm : Realm) : Realm :=
  match realm.objects.get? object with
  | some holder => { realm with objects := realm.objects.set object holder.reopen }
  | none => realm

variable {realm : Realm} {chart : Chart} {views : Views} {object : Handle} {holder : Object}
  {view : Object.View} {key : Key} {α : Type}

theorem reopen_eq (found : realm.objects.get? object = some holder) :
    realm.reopen object = { realm with objects := realm.objects.set object holder.reopen } := by
  rw [reopen, found]

theorem heedless_onObject {action : Object.Action α}
    (found : realm.objects.get? object = some holder)
    (heedless : action.Heedless Object.Context.reopen ⟨holder, realm.shapes⟩) :
    (onObject object action).Heedless (reopen object) realm := by
  have live := Arena.contains_of_get? found
  have opened : (realm.objects.set object holder.reopen).get? object = some holder.reopen :=
    (Arena.get?_set_live live _ object).trans (if_pos rfl)
  have put : ∀ part : Object.Context,
      ({ realm with objects := realm.objects.set object part.object, shapes := part.shapes } :
        Realm).reopen object =
      { realm with objects := realm.objects.set object part.object.reopen, shapes := part.shapes } := by
    intro part
    have there : (realm.objects.set object part.object).get? object = some part.object :=
      (Arena.get?_set_live live _ object).trans (if_pos rfl)
    rw [reopen_eq there]
    simp only [Arena.set_set]
  unfold Action.Heedless
  rw [reopen_eq found]
  unfold onObject
  rw [Action.bind_ok (fetch_ok opened), Action.bind_ok (fetch_ok found)]
  unfold Action.focus
  have changed : action ⟨holder.reopen, realm.shapes⟩ =
      Action.carry Object.Context.reopen (action ⟨holder, realm.shapes⟩) := heedless
  simp only [changed]
  cases action ⟨holder, realm.shapes⟩ with
  | ok answer part =>
    simp only [Action.carry, put, Arena.set_set]
    rfl
  | error fault part =>
    simp only [Action.carry, put, Arena.set_set]
    rfl

theorem Holds.heedless_getOwn (holds : realm.Holds chart views) (shown : views object = some view)
    (key : Key) : (getOwn object key).Heedless (reopen object) realm := by
  obtain ⟨holder, found, _⟩ := holds.find shown
  exact heedless_onObject found (Object.heedless_getOwn key _)

theorem Holds.heedless_delete (holds : realm.Holds chart views) (shown : views object = some view)
    (key : Key) : (onObject object (Object.delete key)).Heedless (reopen object) realm := by
  obtain ⟨holder, found, _⟩ := holds.find shown
  exact heedless_onObject found (Object.heedless_delete key _)

theorem Holds.heedless_define (holds : realm.Holds chart views) (shown : views object = some view)
    (sound : view.content.Sound) (own : (view.getOwn key).isSome = true) (desc : Descriptor) :
    (onObject object (Object.define key desc)).Heedless (reopen object) realm := by
  obtain ⟨holder, found, held⟩ := holds.find shown
  apply heedless_onObject found
  rw [holds.shapes]
  exact held.heedless_define sound own desc

/-- What an assignment to an own property does is decided by the property alone. -/
theorem Holds.heedless_assignment (holds : realm.Holds chart views) (shown : views object = some view)
    (own : (view.getOwn key).isSome = true) :
    (assignment object key).Heedless (reopen object) realm := by
  obtain ⟨desc, present⟩ := Option.isSome_iff_exists.mp own
  obtain ⟨looked, _, ran, _⟩ := holds.getOwn_ok shown key
  refine (holds.heedless_getOwn shown key).bind fun answer after answered => ?_
  rw [ran, present] at answered
  cases answered
  simp only
  split
  · exact Action.heedless_pure _
  · exact Action.heedless_pure _

theorem Assignment.choose_ne_create (own : Descriptor) (inherited : Option Descriptor)
    (extensible : Bool) : Assignment.choose (some own) inherited extensible ≠ .create := by
  unfold choose Assignment.ofSetter
  simp only
  split
  · split <;> nofun
  · split <;> nofun

end Realm

namespace Change

variable {host : Host} {realm : Realm} {chart : Chart} {views : Realm.Views} {view : Object.View}
  {change : Change} {raises : Bool}

def key : Change → Key
  | .put _ key _ | .define _ key _ | .delete _ key => key

/-- Where no native function is called, a change to a property that is there does the same whether or
not the object may be extended. -/
theorem heedless_judge (holds : realm.Holds chart views) (valid : views.Valid)
    (shown : views change.object = some view) (own : (view.getOwn change.key).isSome = true)
    (silent : (change.request raises).callsNative realm = false) :
    (change.judge host).Heedless (Realm.reopen change.object) realm := by
  have sound := valid.sound change.object view shown
  cases change with
  | define object key desc => exact holds.heedless_define shown sound own desc
  | delete object key => exact holds.heedless_delete shown key
  | put object key value =>
    change views object = some view at shown
    change (view.getOwn key).isSome = true at own
    obtain ⟨desc, present⟩ := Option.isSome_iff_exists.mp own
    obtain ⟨bound, looked, after, decided, held⟩ := holds.assignment_settled shown (Or.inr valid) key
    rw [Realm.Views.decision_of_own present] at decided
    refine (holds.heedless_assignment shown own).bind fun decision later answered => ?_
    rw [decided] at answered
    cases answered
    cases same : Realm.Assignment.choose (some desc) none view.extensible with
    | refused => exact Action.heedless_pure _
    | overwrite => exact held.heedless_define shown sound own _
    | create => exact absurd same (Realm.Assignment.choose_ne_create _ _ _)
    | setter function =>
      rw [same] at decided
      have inert := Realm.inert_of_silent (Request.pursue_put decided value raises) silent
      refine Action.Heedless.bind ?_ fun _ _ _ => Action.heedless_pure _
      cases function with
      | native function => cases inert
      | _ => exact rfl

theorem outcome_reopen (holds : realm.Holds chart views) (valid : views.Valid)
    (shown : views change.object = some view) (own : (view.getOwn change.key).isSome = true)
    (silent : (change.request raises).callsNative realm = false) :
    (change.request raises).outcome host (realm.reopen change.object) =
      (((change.request raises).outcome host realm).1,
        ((change.request raises).outcome host realm).2.reopen change.object) := by
  have heedless : ((change.request raises).perform host).Heedless (Realm.reopen change.object) realm := by
    rw [perform_judge]
    exact ((heedless_judge holds valid shown own silent).report raises).bind fun _ _ _ =>
      Action.heedless_pure _
  unfold Request.outcome
  rw [heedless]
  cases (change.request raises).perform host realm <;> rfl

/-- A change to a property that is there comes to the same whether or not the object may be extended:
to nothing, to the same definition, or to the same call. -/
theorem pursue_reopen (holds : realm.Holds chart views) (shown : views change.object = some view)
    (own : (view.getOwn change.key).isSome = true) (raises : Bool) :
    (change.request raises).pursue (realm.reopen change.object) =
      (((change.request raises).pursue realm).1.reopen change.object,
        ((change.request raises).pursue realm).2) := by
  cases change with
  | define object key desc => rfl
  | delete object key => rfl
  | put object key value =>
    have heedless : (Realm.assignment object key).Heedless (Realm.reopen object) realm :=
      holds.heedless_assignment shown own
    show Request.lookUp (Realm.assignment object key) _ (realm.reopen object) =
      ((Request.lookUp (Realm.assignment object key) _ realm).1.reopen object,
        (Request.lookUp (Realm.assignment object key) _ realm).2)
    unfold Request.lookUp
    rw [heedless]
    cases Realm.assignment object key realm <;> rfl

end Change

/-! ### Closed to extensions -/

namespace Realm

variable {host : Host} {early middle last : List Turn} {object : Handle}

variable {realm : Realm} {chart : Chart} {views : Views} {view : Object.View}

theorem Holds.extensible_eq (holds : realm.Holds chart views) (shown : views object = some view) :
    (realm.objects.get? object).map Object.extensible = some view.extensible := by
  obtain ⟨holder, found, held⟩ := holds.find shown
  rw [found, Option.map_some, held.extensible]

/-- Preventing extensions is all that it takes, and it hands in nothing. -/
theorem Holds.capped_preventExtensions (holds : realm.Holds chart views) (valid : views.Valid)
    (solid : views.Solid) (host : Host)
    (lawful : (Turn.make (.preventExtensions object)).isLawful realm = true) :
    ∃ (later : Views) (content : Object.Content),
      ((Turn.make (.preventExtensions object)).after host realm).Holds chart later ∧ later.Valid ∧
      later.Solid ∧ later.Live object ∧ later.Capped object content := by
  have named := Turn.namesLive_of_lawful lawful
  have contained := Request.live_of_namesLive named nofun object (List.mem_singleton_self object)
  obtain ⟨view, shown⟩ := holds.live_iff.mpr contained
  have sound := valid.sound object view shown
  refine ⟨_, view.content, (holds.outcome_preventExtensions host shown).2,
    valid.update object sound (valid.content object view shown) (valid.prototype object view shown),
    Views.Every.update solid object (solid object view shown), ⟨_, Views.update_same ..⟩, ?_⟩
  intro moved found
  rw [Views.update_same] at found
  cases found
  exact ⟨rfl, .refl view.content⟩

/-- As long as live handles are passed and no hole is handed in, an object whose extensions were
prevented is not opened again and never gains a key, whatever happens to it and around it until it is
freed; and at any moment, a change to a property that it has is decided, answered and carried out as if
it were open. -/
theorem preventExtensions_lasts {config : Config}
    (lawful : (ofConfig config).lawful host
      (early ++ .make (.preventExtensions object) :: (middle ++ last)) = true)
    (solid : ∀ turn ∈ early ++ .make (.preventExtensions object) :: (middle ++ last),
      turn.request.Solid)
    (survives : ((ofConfig config).course host
      (early ++ [.make (.preventExtensions object)])).survives host object (middle ++ last) = true) :
    let realm := (ofConfig config).course host (early ++ .make (.preventExtensions object) :: middle)
    let later := realm.course host last
    (realm.objects.get? object).map Object.extensible = some false ∧
      (later.objects.get? object).map Object.extensible = some false ∧
      (∀ key, realm.owns object key = false → later.owns object key = false) ∧
      ∀ change : Change, change.object = object → realm.owns object change.key = true → ∀ raises,
        let request := change.request raises
        request.pursue (realm.reopen object) =
            ((request.pursue realm).1.reopen object, (request.pursue realm).2) ∧
          (request.callsNative realm = false → request.outcome host (realm.reopen object) =
            ((request.outcome host realm).1, (request.outcome host realm).2.reopen object)) := by
  intro realm later
  obtain ⟨lawfulEarly, lawfulRest⟩ := lawful_append.mp lawful
  obtain ⟨lawfulFirst, lawfulLater⟩ := lawful_cons.mp lawfulRest
  obtain ⟨lawfulMiddle, lawfulLast⟩ := lawful_append.mp lawfulLater
  rw [course_append] at survives
  obtain ⟨survivesMiddle, survivesLast⟩ := survives_append.mp survives
  obtain ⟨solidEarly, solidRest⟩ := List.forall_mem_append.mp solid
  obtain ⟨solidMiddle, solidLast⟩ :=
    List.forall_mem_append.mp (List.forall_mem_cons.mp solidRest).2
  have reached : realm = (((Turn.make (.preventExtensions object)).after host
      ((ofConfig config).course host early)).course host middle) := course_append ..
  -- the object is capped where extensions are prevented, and from each later moment on
  obtain ⟨start, holdsStart⟩ := holds_ofConfig config
  obtain ⟨_, _, holdsEarly, validEarly, solidViews⟩ :=
    holdsStart.solid_course valid_empty Views.solid_empty lawfulEarly solidEarly
  obtain ⟨first, _, held, valid, solidFirst, live, capped⟩ :=
    holdsEarly.capped_preventExtensions validEarly solidViews host lawfulFirst
  obtain ⟨chart, views, holds, validHere, solidHere, ⟨view, shown⟩, cappedHere⟩ :=
    held.capped_course valid solidFirst live capped lawfulMiddle solidMiddle survivesMiddle
  rw [← reached] at holds
  obtain ⟨fixed, _⟩ := cappedHere view shown
  have own : views.Capped object view.content := by
    intro again found
    rw [shown] at found
    cases found
    exact ⟨fixed, .refl view.content⟩
  obtain ⟨_, seen, holdsLast, validLast, solidSeen, ⟨moved, shownLast⟩, cappedLast⟩ :=
    holds.capped_course validHere solidHere ⟨view, shown⟩ own (reached ▸ lawfulLast) solidLast
      (reached ▸ survivesLast)
  obtain ⟨fixedLast, dwindles⟩ := cappedLast moved shownLast
  refine ⟨?_, ?_, fun key absent => ?_, ?_⟩
  · rw [holds.extensible_eq shown, fixed]
  · rw [holdsLast.extensible_eq shownLast, fixedLast]
  · rw [holds.owns_eq_has validHere solidHere shown] at absent
    rw [holdsLast.owns_eq_has validLast solidSeen shownLast, Bool.eq_false_iff]
    intro held
    rw [dwindles key held] at absent
    cases absent
  · rintro change rfl owned raises
    rw [holds.owns_of_shown shown] at owned
    exact ⟨Change.pursue_reopen holds shown owned raises,
      Change.outcome_reopen holds validHere shown owned⟩

/-- An array with plain elements on both sides of the bound between vector and map, and a name. -/
def preparing : List Turn :=
  let array : Handle := ⟨0, 0⟩
  [.make (.intern "x"), .make (.newArray 3), .make (.put array (.index 1) (.int 1) true),
    .make (.put array (.index 9) (.text "far") true), .make (.put array (.named 1) .null true)]

/-- Elements are deleted, pinned and moved, the array is cut short and gets a shape of its own; what
is not there is asked for in all the ways there are. -/
def pressing : List Turn :=
  let array : Handle := ⟨0, 0⟩
  [.make (.define array (.index 9) (.data (.int 9) { writable := true }) true),
    .make (.put array (.index 2) .null false), .make (.delete array (.index 1) true),
    .make (.define array (.index 1) (.plain .null) false), .make (.makeUnique array),
    .make (.delete array (.named 1) true), .make (.put array (.named 1) .null false),
    .make (.makeTransitionable array), .make (.collect [array]),
    .make (.define array (.index 0) (.accessor none none {}) false),
    .make (.put array .length (.int 5) false)]

theorem preventExtensions_lasts_pressing :
    let closing := preparing ++ .make (.preventExtensions ⟨0, 0⟩) :: ([] ++ pressing)
    let realm := (ofConfig { maxVectorSize := 4 }).course Host.none
      (preparing ++ .make (.preventExtensions ⟨0, 0⟩) :: [])
    (ofConfig { maxVectorSize := 4 }).lawful Host.none closing = true ∧
      (∀ turn ∈ closing, turn.request.Solid) ∧
      ((ofConfig { maxVectorSize := 4 }).course Host.none
        (preparing ++ [.make (.preventExtensions ⟨0, 0⟩)])).survives Host.none ⟨0, 0⟩
          ([] ++ pressing) = true ∧
      (realm.objects.get? ⟨0, 0⟩).map Object.extensible = some false ∧
      (realm.owns ⟨0, 0⟩ (.index 2) = false ∧
        (realm.course Host.none pressing).owns ⟨0, 0⟩ (.index 2) = false) ∧
      realm.owns ⟨0, 0⟩ (.index 9) = true ∧
      ((Request.define ⟨0, 0⟩ (.index 9) (.data (.int 9) { writable := true }) true).outcome Host.none
        (realm.reopen ⟨0, 0⟩)).1 = .answered (.accepted true) := by
  intro closing realm
  have lawful : (ofConfig { maxVectorSize := 4 }).lawful Host.none closing = true := by
    decide +kernel
  have solid : ∀ turn ∈ closing, turn.request.Solid := by decide +kernel
  have survives : ((ofConfig { maxVectorSize := 4 }).course Host.none
      (preparing ++ [.make (.preventExtensions ⟨0, 0⟩)])).survives Host.none ⟨0, 0⟩
        ([] ++ pressing) = true := by decide +kernel
  have absent : realm.owns ⟨0, 0⟩ (.index 2) = false := by decide +kernel
  have own : realm.owns ⟨0, 0⟩ (.index 9) = true := by decide +kernel
  have accepted : ((Request.define ⟨0, 0⟩ (.index 9) (.data (.int 9) { writable := true })
      true).outcome Host.none realm).1 = .answered (.accepted true) := by decide +kernel
  have ⟨fixed, _, shrinks, alike⟩ := preventExtensions_lasts lawful solid survives
  have same := (alike (.define ⟨0, 0⟩ (.index 9) (.data (.int 9) { writable := true })) rfl own
    true).2 rfl
  exact ⟨lawful, solid, survives, fixed, ⟨absent, shrinks _ absent⟩, own,
    (congrArg Prod.fst same).trans accepted⟩

/-- A hole that lies in the map of an array counts for nothing, until a definition moves it to the
store: the array has a new key then, although its extensions were prevented. -/
theorem preventExtensions_lasts_not_with_hole :
    let array : Handle := ⟨0, 0⟩
    let early : List Turn := [.make (.newArray 10), .make (.put array (.index 7) .hole true)]
    let last : List Turn :=
      [.make (.define array (.index 7) (.data (.int 1) { enumerable := true }) true)]
    let realm := (ofConfig { maxVectorSize := 4 }).course Host.none
      (early ++ [.make (.preventExtensions array)])
    (ofConfig { maxVectorSize := 4 }).lawful Host.none
        (early ++ .make (.preventExtensions array) :: last) = true ∧
      realm.survives Host.none array last = true ∧
      realm.owns array (.index 7) = false ∧
      (realm.course Host.none last).owns array (.index 7) = true := by
  decide +kernel

end Realm

end HiddenClass
