import HiddenClass.Proofs.Checked.Realm
import HiddenClass.Proofs.Inheritance
import HiddenClass.Proofs.Settled

/-!
Realms that stand: what they show is valid and settled, and prototypes go back in time. The operations
of a script come to an answer or an error in such a realm, pass their checks, and leave one behind.
-/

namespace HiddenClass

open HiddenClass.Action (Passes)

/-- An answer or an error makes a report of one or the other. -/
theorem Action.report_settled {σ : Type} {action : Action σ Verdict} {state after : σ}
    {answer : Except Error Verdict}
    (ran : action state = settled (answer.mapError .error) after) (raises : Bool) :
    ∃ reported : Except Error Bool,
      report raises action state = settled (reported.mapError .error) after := by
  cases answer with
  | error error => exact ⟨.error error, report_error ran raises⟩
  | ok verdict =>
    refine ⟨verdict.report raises, (report_ok ran raises).trans ?_⟩
    unfold ending settled
    cases verdict.report raises <;> rfl

/-- Requests that take no object away and give none another prototype. -/
def Request.isSteady : Request → Bool
  | .setPrototype .. | .collect _ => false
  | _ => true

namespace Realm

namespace Views

variable {views later : Views} {view : Object.View} {handle : Handle} {request : Request}
  {reply : Reply}

theorem founded_empty : Founded fun _ => none := ⟨fun _ => 0, fun _ _ shown => by cases shown⟩

/-- A new object is younger than its prototype. -/
theorem Founded.gains (founded : views.Founded) (valid : views.Valid)
    (prototype : ∀ prototype, view.prototype = some prototype → views.Live prototype)
    (gains : views.Gains view reply later) : later.Founded := by
  obtain ⟨handle, absent, _, rfl⟩ := gains
  obtain ⟨age, aged⟩ := founded
  have other : ∀ target, views.Live target → target ≠ handle := by
    rintro target ⟨shown, live⟩ rfl
    cases absent.symm.trans live
  let youth := (view.prototype.map age).getD 0 + 1
  refine ⟨Function.update age handle youth, fun child shown found parent linked => ?_⟩
  rcases of_update found with ⟨rfl, rfl⟩ | ⟨different, old⟩
  · rw [Function.update_self, Function.update_of_ne (other parent (prototype parent linked))]
    simp only [youth, linked, Option.map_some, Option.getD_some, Nat.lt_succ_self]
  · rw [Function.update_of_ne different,
      Function.update_of_ne (other parent (valid.prototype child shown old parent linked))]
    exact aged child shown old parent linked

/-- An object keeps its prototype. -/
theorem Founded.update (founded : views.Founded) {before : Object.View}
    (shown : views handle = some before) (same : view.prototype = before.prototype) :
    (views.update handle view).Founded := by
  obtain ⟨age, aged⟩ := founded
  refine ⟨age, fun child moved found parent linked => ?_⟩
  rcases of_update found with ⟨rfl, rfl⟩ | ⟨_, old⟩
  · exact aged child before shown parent (same ▸ linked)
  · exact aged child moved old parent linked

theorem Founded.step (founded : views.Founded) (valid : views.Valid)
    (live : ∀ handle ∈ request.handles, views.Live handle) (step : views.Step request reply later)
    (keeps : ∀ object prototype, request ≠ .setPrototype object prototype) : later.Founded := by
  cases request with
  | intern text => exact step.2 ▸ founded
  | newObject prototype | newUniqueObject prototype =>
    exact founded.gains valid (fun target linked => live target (Option.mem_toList.mpr linked)) step
  | newArray length => exact founded.gains valid (fun _ linked => by cases linked) step
  | getOwn object key =>
    obtain ⟨_, _, _, rfl⟩ := step
    exact founded
  | getProperty object key =>
    obtain ⟨_, _, rfl⟩ := step
    exact founded
  | define object key desc raises =>
    obtain ⟨before, _, _, shown, _, _, rfl⟩ := step
    exact founded.update shown rfl
  | delete object key raises | preventExtensions object =>
    obtain ⟨before, shown, _, rfl⟩ := step
    exact founded.update shown rfl
  | keys object filter =>
    obtain ⟨_, _, _, _, _, rfl⟩ := step
    exact founded
  | setPrototype object prototype => exact absurd rfl (keeps object prototype)
  | makeUnique object | makeTransitionable object => exact step.2 ▸ founded
  | collect roots =>
    obtain ⟨age, aged⟩ := founded
    exact ⟨age, fun handle view shown => aged handle view (step.2.1 handle view shown)⟩
  | read object key | put object key value raises => exact step.elim

theorem Step.kept (step : views.Step request reply later) (steady : request.isSteady = true)
    (live : views.Live handle) : later.Live handle := by
  cases request with
  | intern text | makeUnique object | makeTransitionable object => exact step.2 ▸ live
  | newObject prototype | newUniqueObject prototype | newArray length =>
    obtain ⟨_, _, _, rfl⟩ := step
    exact live_update views _ _ live
  | getOwn object key =>
    obtain ⟨_, _, _, rfl⟩ := step
    exact live
  | getProperty object key =>
    obtain ⟨_, _, rfl⟩ := step
    exact live
  | define object key desc raises =>
    obtain ⟨_, _, _, _, _, _, rfl⟩ := step
    exact live_update views _ _ live
  | delete object key raises | preventExtensions object =>
    obtain ⟨_, _, _, rfl⟩ := step
    exact live_update views _ _ live
  | keys object filter =>
    obtain ⟨_, _, _, _, _, rfl⟩ := step
    exact live
  | setPrototype object prototype | collect roots => cases steady
  | read object key | put object key value raises => exact step.elim

end Views

/-! ### Standing -/

/-- What the realm shows is valid and settled, and prototypes go back in time. -/
def Standing (realm : Realm) : Prop :=
  ∃ (chart : Chart) (views : Views),
    realm.Holds chart views ∧ views.Valid ∧ views.Settled ∧ views.Founded

theorem standing_ofConfig (config : Config) : (ofConfig config).Standing := by
  obtain ⟨chart, holds⟩ := holds_ofConfig config
  exact ⟨chart, _, holds, valid_empty, Views.every_empty, Views.founded_empty⟩

/-- The later realm stands, and no object is gone. -/
structure Reaches (realm later : Realm) : Prop where
  stands : later.Standing
  kept : ∀ handle, realm.objects.contains handle = true → later.objects.contains handle = true

/-- The action comes to an answer or an error, in a realm that stands and has the same objects. -/
def Ends {α : Type} (action : Action α) (realm : Realm) : Prop :=
  ∃ (answer : Except Error α) (later : Realm),
    action realm = Action.settled (answer.mapError .error) later ∧ realm.Reaches later

/-- As `Ends`, and the action passes its checks. -/
structure Proceeds {α : Type} (checked action : Action α) (realm : Realm) : Prop where
  passes : Passes true Realm.shapes checked action realm
  ends : realm.Ends action

/-- As `Proceeds`, with a live object as the answer. -/
structure Makes (checked action : Action Handle) (realm : Realm) : Prop where
  passes : Passes true Realm.shapes checked action realm
  ends : ∃ (handle : Handle) (later : Realm), action realm = .ok handle later ∧
    realm.Reaches later ∧ later.objects.contains handle = true

variable {realm later : Realm} {chart after : Chart} {views seen : Views} {handle : Handle}
  {view : Object.View} {request : Request} {reply : Reply} {crash : Fault} {key : Key}
  {desc : Descriptor} {value : Value} {roots : List Handle}

namespace Holds

variable (holds : realm.Holds chart views) (valid : views.Valid) (settled : views.Settled)
  (founded : views.Founded)
include holds valid settled founded

/-- Looking at the views changes nothing. -/
theorem reaches_same (held : later.Holds after views) : realm.Reaches later :=
  ⟨⟨after, views, held, valid, settled, founded⟩, fun _ live =>
    held.live_iff.mp (holds.live_iff.mpr live)⟩

theorem reaches (held : later.Holds after seen) (step : views.Step request reply seen)
    (live : ∀ handle ∈ request.handles, views.Live handle) (plain : request.Plain)
    (steady : request.isSteady = true) : realm.Reaches later where
  stands := by
    refine ⟨after, seen, held, valid.step live step,
      Views.Every.step settled lasting_settled valid plain step, founded.step valid live step ?_⟩
    rintro object prototype rfl
    cases steady
  kept := fun _ contained => held.live_iff.mp (step.kept steady (holds.live_iff.mpr contained))

theorem makes {checked action : Action Handle} (passes : Passes true Realm.shapes checked action realm)
    (ran : action realm = .ok handle later) (held : later.Holds after (views.update handle view))
    (step : views.Step request reply (views.update handle view))
    (live : ∀ handle ∈ request.handles, views.Live handle) (plain : request.Plain)
    (steady : request.isSteady = true) : realm.Makes checked action :=
  ⟨passes, handle, later, ran, holds.reaches valid settled founded held step live plain steady,
    held.live_iff.mp ⟨view, Views.update_same views handle view⟩⟩

theorem ends_onDefine (shown : views handle = some view) (interned : key.Interned)
    (solid : desc.All Value.Solid) (given : ∀ target ∈ desc.handles, views.Live target) :
    realm.Ends (onObject handle (Object.define key desc)) := by
  obtain ⟨object, found, held⟩ := holds.find shown
  obtain ⟨bound, doomed, listed, concludes⟩ := held.define (valid.sound handle view shown) key desc
  obtain ⟨later, after, ran, heldLater⟩ := holds.onObject_ok found concludes
  obtain ⟨answer, ends⟩ :=
    (settled handle view shown).define_ends (valid.sound handle view shown) listed
  rw [Object.View.define, ends] at ran
  have step : views.Step (.define handle key desc true) _ _ :=
    ⟨view, bound, doomed, shown, listed, rfl, rfl⟩
  have named : ∀ target ∈ handle :: desc.handles, views.Live target :=
    List.forall_mem_cons.mpr ⟨⟨view, shown⟩, given⟩
  exact ⟨answer, later, ran,
    holds.reaches valid settled founded heldLater step named ⟨interned, solid⟩ rfl⟩

end Holds

/-! ### Proceeding -/

section Proceeding

variable {α β : Type}

theorem Ends.report {action : Action Verdict} (ends : realm.Ends action) (raises : Bool) :
    realm.Ends (Action.report raises action) := by
  obtain ⟨answer, later, ran, reaches⟩ := ends
  obtain ⟨reported, ended⟩ := Action.report_settled ran raises
  exact ⟨reported, later, ended, reaches⟩

/-- After an answer the next action goes on. -/
theorem Ends.bind {action : Action α} {next : α → Action β} (first : realm.Ends action)
    (second : ∀ answer later, action realm = .ok answer later → realm.Reaches later →
      later.Ends (next answer)) : realm.Ends (action >>= next) := by
  obtain ⟨answer, later, ran, reaches⟩ := first
  cases answer with
  | ok answer =>
    obtain ⟨result, last, ended, further⟩ := second answer later ran reaches
    exact ⟨result, last, (Action.bind_ok ran next).trans ended, further.stands,
      fun handle live => further.kept handle (reaches.kept handle live)⟩
  | error error =>
    refine ⟨.error error, later, ?_, reaches⟩
    rw [Action.bind_apply, ran]
    rfl

theorem Proceeds.bind {checked action : Action α} {checkedNext next : α → Action β}
    (first : realm.Proceeds checked action)
    (second : ∀ answer later, action realm = .ok answer later → realm.Reaches later →
      later.Proceeds (checkedNext answer) (next answer)) :
    realm.Proceeds (checked >>= checkedNext) (action >>= next) where
  passes := by
    obtain ⟨answer, later, ran, reaches⟩ := first.ends
    refine first.passes.bind fun reply after began => ?_
    have reached := Action.final_settled ran
    rw [Action.final_ok began] at reached
    exact (second reply after began (reached ▸ reaches)).passes
  ends := first.ends.bind fun answer later ran reaches => (second answer later ran reaches).ends

end Proceeding

section Same

variable {α β : Type} {action : Action α} (stands : realm.Standing)
include stands

/-- An action without a check that leaves the realm as it is. -/
theorem Standing.proceeds_of_settled {answer : Except Error α}
    (ran : action realm = Action.settled (answer.mapError .error) realm) :
    realm.Proceeds action action :=
  ⟨Action.passes_of_shapes (congrArg Realm.shapes (Action.final_settled ran)),
    ⟨answer, realm, ran, stands, fun _ live => live⟩⟩

theorem Standing.proceeds_of_ok {answer : α} (ran : action realm = .ok answer realm) :
    realm.Proceeds action action := by
  have settled : action realm =
      Action.settled ((.ok answer : Except Error α).mapError .error) realm := ran
  exact stands.proceeds_of_settled settled

theorem Standing.proceeds_pure (answer : α) : realm.Proceeds (pure answer) (pure answer) :=
  stands.proceeds_of_ok rfl

end Same

/-- An answer may be put in other words. -/
theorem Proceeds.map {α β : Type} {checked action : Action α}
    (proceeds : realm.Proceeds checked action) (change : α → β) :
    realm.Proceeds (checked >>= fun answer => pure (change answer))
      (action >>= fun answer => pure (change answer)) :=
  proceeds.bind fun answer _ _ reaches => reaches.stands.proceeds_pure (change answer)

/-! ### What a script asks for -/

/-- Values that a script can give: they are no hole and name live objects only. -/
structure Holdable (realm : Realm) (value : Value) : Prop where
  solid : value.Solid
  live : ∀ handle ∈ value.handles, realm.objects.contains handle = true

theorem holdable_undefined (realm : Realm) : realm.Holdable .undefined :=
  ⟨Value.solid_undefined, fun _ member => by cases member⟩

theorem Holdable.data (held : realm.Holdable value) (attributes : Attributes) :
    (Descriptor.data value attributes).All realm.Holdable :=
  ⟨held, realm.holdable_undefined, realm.holdable_undefined⟩

theorem Holdable.mono (held : realm.Holdable value)
    (kept : ∀ handle, realm.objects.contains handle = true → later.objects.contains handle = true) :
    later.Holdable value :=
  ⟨held.solid, fun handle member => kept handle (held.live handle member)⟩

namespace Standing

variable (stands : realm.Standing)
include stands

theorem newObject {prototype : Option Handle}
    (live : ∀ parent ∈ prototype.toList, realm.objects.contains parent = true) :
    realm.Makes (newObjectWith (.all crash) prototype) (newObject prototype) := by
  obtain ⟨chart, views, holds, valid, settled, founded⟩ := stands
  obtain ⟨handle, later, ran, fresh, held⟩ := holds.newObject_ok prototype
  have step : views.Step (.newObject prototype) _ _ := ⟨handle, fresh, rfl, rfl⟩
  exact holds.makes valid settled founded (holds.passes_newObject (.all crash) prototype) ran held step
    (fun parent member => holds.live_iff.mpr (live parent member)) trivial rfl

theorem newUniqueObject :
    realm.Makes (newUniqueObjectWith (.all crash) none) (newUniqueObject none) := by
  obtain ⟨chart, views, holds, valid, settled, founded⟩ := stands
  obtain ⟨handle, later, after, ran, fresh, held⟩ := holds.newUniqueObject_ok none
  have step : views.Step (.newUniqueObject none) _ _ := ⟨handle, fresh, rfl, rfl⟩
  exact holds.makes valid settled founded (holds.passes_newUniqueObject (.all crash) none) ran held step
    (fun _ member => by cases member) trivial rfl

theorem newArray {length : Nat} (word : length < 4294967296) :
    realm.Makes (newArrayWith (.all crash) length) (newArray length) := by
  obtain ⟨chart, views, holds, valid, settled, founded⟩ := stands
  obtain ⟨handle, later, ran, fresh, held⟩ := holds.newArray_ok length
  have step : views.Step (.newArray length) _ _ := ⟨handle, fresh, rfl, rfl⟩
  exact holds.makes valid settled founded (holds.passes_newArray (.all crash) length) ran held step
    (fun _ member => by cases member) word rfl

variable (live : realm.objects.contains handle = true)
include live

theorem read (key : Key) :
    realm.Proceeds (readWith (.all crash) Host.none handle key) (read Host.none handle key) := by
  obtain ⟨chart, views, holds, valid, settled, founded⟩ := stands
  have alive := holds.live_iff.mpr live
  obtain ⟨later, after, ran, held⟩ := holds.getProperty_settled valid alive key
  obtain ⟨found, searched⟩ := holds.search_ok valid founded key handle
  rw [searched] at ran
  have reaches := holds.reaches_same valid settled founded held
  have looked : realm.Proceeds (getPropertyWith (.all crash) handle key) (getProperty handle key) :=
    ⟨holds.passes_getProperty (.all crash) handle key, .ok _, later, ran, reaches⟩
  refine looked.bind fun answer after began _ => ?_
  cases ran.symm.trans began
  cases found with
  | none => exact reaches.stands.proceeds_pure Value.undefined
  | some desc =>
    by_cases accessor : desc.isAccessor = true
    · simp only [if_pos accessor]
      obtain ⟨answer, called⟩ := call_none desc.getter (.object handle) [] later
      exact reaches.stands.proceeds_of_settled called
    · simp only [if_neg accessor]
      exact reaches.stands.proceeds_pure desc.value

theorem ends_onDefine (interned : key.Interned) (given : desc.All realm.Holdable) :
    realm.Ends (onObject handle (Object.define key desc)) := by
  obtain ⟨chart, views, holds, valid, settled, founded⟩ := stands
  obtain ⟨view, shown⟩ := holds.live_iff.mpr live
  have solid : desc.All Value.Solid := ⟨given.value.solid, given.getter.solid, given.setter.solid⟩
  refine holds.ends_onDefine valid settled founded shown interned solid fun target member => ?_
  unfold Descriptor.handles at member
  simp only [List.mem_append] at member
  rcases member with (value | getter) | setter
  · exact holds.live_iff.mpr (given.value.live target value)
  · exact holds.live_iff.mpr (given.getter.live target getter)
  · exact holds.live_iff.mpr (given.setter.live target setter)

theorem define (interned : key.Interned) (given : desc.All realm.Holdable) (raises : Bool) :
    realm.Proceeds (defineWith (.all crash) raises handle key desc)
      (define handle key desc raises) := by
  have ends := (stands.ends_onDefine live interned given).report raises
  obtain ⟨chart, views, holds, valid, _⟩ := stands
  exact ⟨holds.passes_define (.all crash) valid handle key desc, ends⟩

theorem delete (interned : key.Interned) (raises : Bool) :
    realm.Proceeds (deleteWith (.all crash) raises handle key) (delete handle key raises) := by
  obtain ⟨chart, views, holds, valid, settled, founded⟩ := stands
  obtain ⟨view, shown⟩ := holds.live_iff.mpr live
  obtain ⟨object, found, objectHeld⟩ := holds.find shown
  obtain ⟨later, after, ran, held⟩ := holds.onObject_ok found (objectHeld.delete key)
  have answered : onObject handle (Object.delete key) realm = Action.settled
    ((Except.ok (view.delete key).1 : Except Error Verdict).mapError .error) later := ran
  have step : views.Step (.delete handle key raises) _ _ := ⟨view, shown, rfl, rfl⟩
  have named : ∀ target ∈ [handle], views.Live target :=
    List.forall_mem_singleton.mpr ⟨view, shown⟩
  have reaches := holds.reaches valid settled founded held step named interned rfl
  obtain ⟨reported, ended⟩ := Action.report_settled answered raises
  exact ⟨holds.passes_delete (.all crash) handle key, reported, later, ended, reaches⟩

/-- An assignment is refused, calls a function, which is an error here, or is a definition. -/
theorem ends_assign (interned : key.Interned) (given : realm.Holdable value) :
    realm.Ends (assign Host.none handle key value) := by
  obtain ⟨chart, views, holds, valid, settled, founded⟩ := stands
  obtain ⟨view, shown⟩ := holds.live_iff.mpr live
  obtain ⟨decision, later, after, ran, held⟩ := holds.assignment_ok valid founded shown key
  have reaches := holds.reaches_same valid settled founded held
  have defined : ∀ attributes,
      later.Ends (onObject handle (Object.define key (.data value attributes))) := fun attributes =>
    reaches.stands.ends_onDefine (reaches.kept handle live) interned
      ((given.mono reaches.kept).data attributes)
  have decided : realm.Ends (assignment handle key) := ⟨.ok _, later, ran, reaches⟩
  refine decided.bind fun answer last began _ => ?_
  cases ran.symm.trans began
  cases decision with
  | refused => exact (reaches.stands.proceeds_pure _).ends
  | setter function =>
    obtain ⟨answer, called⟩ := call_none function (.object handle) [value] later
    exact ((reaches.stands.proceeds_of_settled called).map fun _ => Verdict.accepted).ends
  | overwrite => exact defined _
  | create => exact defined _

theorem put (interned : key.Interned) (given : realm.Holdable value) (raises : Bool) :
    realm.Proceeds (putWith (.all crash) raises Host.none handle key value)
      (put Host.none handle key value raises) := by
  have ends := (stands.ends_assign live interned given).report raises
  obtain ⟨chart, views, holds, valid, _⟩ := stands
  exact ⟨holds.passes_put (.all crash) valid (fun _ => rfl) handle key value, ends⟩

theorem keys (filter : KeyFilter) :
    realm.Proceeds (keysWith (.all crash) handle filter) (keys handle filter) := by
  obtain ⟨chart, views, holds, valid, settled, founded⟩ := stands
  obtain ⟨view, shown⟩ := holds.live_iff.mpr live
  obtain ⟨listed, later, after, _, ran, held⟩ := holds.keys_ok shown filter
  exact ⟨holds.passes_keys (.all crash) handle filter, .ok listed, later, ran,
    holds.reaches_same valid settled founded held⟩

theorem preventExtensions :
    realm.Proceeds (preventExtensions handle) (preventExtensions handle) := by
  obtain ⟨chart, views, holds, valid, settled, founded⟩ := stands
  obtain ⟨view, shown⟩ := holds.live_iff.mpr live
  obtain ⟨object, found, _⟩ := holds.find shown
  obtain ⟨later, ran, held⟩ := holds.preventExtensions_ok shown
  have step : views.Step (.preventExtensions handle) _ _ := ⟨view, shown, rfl, rfl⟩
  have named : ∀ target ∈ [handle], views.Live target :=
    List.forall_mem_singleton.mpr ⟨view, shown⟩
  have passes : Passes true Realm.shapes (Realm.preventExtensions handle)
      (Realm.preventExtensions handle) realm :=
    Passes.skip (fetch_ok found) (Action.passes_of_shapes rfl)
  exact ⟨passes, .ok (), later, ran,
    holds.reaches valid settled founded held step named trivial rfl⟩

/-- An object can be fetched, and so can its shape. -/
theorem fetch :
    ∃ object shape, Realm.fetch handle realm = .ok object realm ∧
      Realm.onShapes (Shapes.fetch object.store.shape) realm = .ok shape realm := by
  obtain ⟨chart, views, holds, valid, settled, founded⟩ := stands
  obtain ⟨view, shown⟩ := holds.live_iff.mpr live
  obtain ⟨object, found, held⟩ := holds.find shown
  obtain ⟨shape, shapeFound⟩ := Chart.live_iff.mp held.live
  have fetched := holds.onShapes_ok (Chart.fetch_ok shapeFound)
  rw [← holds.shapes] at fetched
  exact ⟨object, shape, fetch_ok found, fetched⟩

end Standing

/-- After a collection the realm stands, with fewer objects. -/
theorem Standing.collect (stands : realm.Standing)
    (live : ∀ root ∈ roots, realm.objects.contains root = true) :
    Passes true Realm.shapes (collectWith (.all crash) roots) (collect roots) realm ∧
      ∃ census later, Realm.collect roots realm = .ok census later ∧ later.Standing := by
  obtain ⟨chart, views, holds, valid, settled, founded⟩ := stands
  have alive : ∀ root ∈ roots, views.Live root := fun root member =>
    holds.live_iff.mpr (live root member)
  obtain ⟨after, seen, step, held, validSeen⟩ := holds.step_collect valid
    (clear_of_live (holds.rootCells_alive alive)) Host.none
  have plain : (Request.collect roots).Plain := trivial
  have foundedSeen : seen.Founded := by
    refine founded.step valid ?_ step fun _ _ same => by cases same
    exact alive
  exact ⟨holds.passes_collect (.all crash) roots, _, _, rfl, after, seen, held, validSeen,
    Views.Every.step settled lasting_settled valid plain step, foundedSeen⟩

end Realm

end HiddenClass
