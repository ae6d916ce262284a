import HiddenClass.Proofs.Proper
import HiddenClass.Realm.Request

/-!
Requests as they are seen from outside: how the objects of a realm look before and after a request,
and what is answered.
-/

namespace HiddenClass

/-! ### Handles that are passed -/

def Value.handles : Value → List Handle
  | .object handle => [handle]
  | _ => []

def Descriptor.handles (desc : Descriptor) : List Handle :=
  desc.value.handles ++ desc.getter.handles ++ desc.setter.handles

namespace Request

/-- The objects that a request names, as receiver, prototype, root or in a value. -/
def handles : Request → List Handle
  | .intern _ | .newArray _ => []
  | .newObject prototype | .newUniqueObject prototype => prototype.toList
  | .getOwn object _ | .getProperty object _ | .read object _ | .delete object _ _
  | .keys object _ | .preventExtensions object | .makeUnique object
  | .makeTransitionable object => [object]
  | .put object _ value _ => object :: value.handles
  | .define object _ desc _ => object :: desc.handles
  | .setPrototype object prototype => object :: prototype.toList
  | .collect roots => roots

/-- Requests that never call a native function. -/
def isDirect : Request → Bool
  | .read .. | .put .. => false
  | _ => true

end Request

/-- The reply when a verdict is reported. -/
def Reply.ofVerdict (raises : Bool) : Except Fault Verdict → Reply
  | .error fault => .stopped fault
  | .ok verdict =>
    match verdict.report raises with
    | .ok yes => .answered (.accepted yes)
    | .error error => .stopped (.error error)

/-- The reply when a property is looked up. -/
def Reply.ofSearch : Except Fault (Option Descriptor) → Reply
  | .ok found => .answered (.descriptor found)
  | .error fault => .stopped fault

/-! ### Views -/

namespace Realm

/-- The live objects with what they show of themselves. -/
def Views := Handle → Option Object.View

namespace Views

def Live (views : Views) (handle : Handle) : Prop := ∃ view, views handle = some view

/-- A value that names no object that is gone. -/
def Admits (views : Views) (value : Value) : Prop := ∀ handle ∈ value.handles, views.Live handle

/-- Objects are sound and name live objects only. -/
structure Valid (views : Views) : Prop where
  sound : ∀ handle view, views handle = some view → view.content.Sound
  content : ∀ handle view, views handle = some view → view.content.Proper views.Admits
  prototype : ∀ handle view, views handle = some view → ∀ prototype,
    view.prototype = some prototype → views.Live prototype

def update (views : Views) (handle : Handle) (view : Object.View) : Views :=
  Function.update views handle (some view)

/-- The nearest property with a key. The search has to end within a bound on the objects that are
searched. -/
def search (views : Views) (key : Key) : Nat → Handle → Except Fault (Option Descriptor)
  | 0, _ => .error .endless
  | bound + 1, holder =>
    match views holder with
    | none => .ok none
    | some view =>
      match view.getOwn key with
      | some desc => .ok (some desc)
      | none =>
        match view.prototype with
        | some prototype => views.search key bound prototype
        | none => .ok none

/-- The property that an object inherits, if it has none of its own. -/
def inherited (views : Views) (key : Key) (bound : Nat) (view : Object.View) :
    Except Fault (Option Descriptor) :=
  match view.prototype with
  | some prototype => views.search key bound prototype
  | none => .ok none

/-- An object is added under a handle that was not in use. -/
def Gains (views : Views) (view : Object.View) (reply : Reply) (after : Views) : Prop :=
  ∃ handle, views handle = none ∧ reply = .answered (.handle handle) ∧
    after = views.update handle view

/-- What a request that calls no native function does. -/
def Step (views : Views) : Request → Reply → Views → Prop
  | .intern _, reply, after => (∃ key, reply = .answered (.key key)) ∧ after = views
  | .newObject prototype, reply, after | .newUniqueObject prototype, reply, after =>
    views.Gains { content := .ordinary {}, prototype } reply after
  | .newArray length, reply, after =>
    views.Gains { content := .array (.ofLength length), prototype := none } reply after
  | .getOwn object key, reply, after =>
    ∃ view, views object = some view ∧ reply = .answered (.descriptor (view.getOwn key)) ∧
      after = views
  | .getProperty object key, reply, after =>
    ∃ bound, reply = .ofSearch (views.search key bound object) ∧ after = views
  | .define object key desc raises, reply, after =>
    ∃ view bound doomed, views object = some view ∧
      (∀ length, key = Key.length → Elements.lengthOf? desc.value = some length →
        view.content.Doomed length doomed) ∧
      reply = .ofVerdict raises (view.define bound doomed key desc).1 ∧
      after = views.update object (view.define bound doomed key desc).2
  | .delete object key raises, reply, after =>
    ∃ view, views object = some view ∧ reply = .ofVerdict raises (.ok (view.delete key).1) ∧
      after = views.update object (view.delete key).2
  | .keys object filter, reply, after =>
    ∃ view listed, views object = some view ∧ view.content.Lists filter listed ∧
      reply = .answered (.keys listed) ∧ after = views
  | .preventExtensions object, reply, after =>
    ∃ view, views object = some view ∧ reply = .answered .done ∧
      after = views.update object { view with extensible := false }
  | .setPrototype object prototype, reply, after =>
    ∃ view, views object = some view ∧ reply = .answered .done ∧
      after = views.update object { view with prototype }
  | .makeUnique _, reply, after | .makeTransitionable _, reply, after =>
    reply = .answered .done ∧ after = views
  | .collect _, reply, after =>
    (∃ census, reply = .answered (.census census)) ∧
      (∀ handle view, after handle = some view → views handle = some view) ∧ after.Valid
  | .read .., _, _ | .put .., _, _ => False

variable {views after : Views} {handle : Handle} {view : Object.View} {request : Request}
  {reply : Reply} {desc : Descriptor}

theorem update_apply (views : Views) (handle : Handle) (view : Object.View) (other : Handle) :
    views.update handle view other = if other = handle then some view else views other :=
  Function.update_apply ..

theorem update_same (views : Views) (handle : Handle) (view : Object.View) :
    views.update handle view handle = some view :=
  (update_apply ..).trans (if_pos rfl)

/-- After an update there is what was put and what was there elsewhere. -/
theorem of_update {other : Handle} {shown : Object.View}
    (found : views.update handle view other = some shown) :
    other = handle ∧ shown = view ∨ other ≠ handle ∧ views other = some shown := by
  rw [update_apply] at found
  by_cases same : other = handle
  · rw [if_pos same] at found
    exact Or.inl ⟨same, (Option.some.inj found).symm⟩
  · rw [if_neg same] at found
    exact Or.inr ⟨same, found⟩

/-- A search that does not come to its end goes around. -/
theorem fault_search {key : Key} {bound : Nat} {fault : Fault}
    (stopped : views.search key bound handle = .error fault) : fault = .endless := by
  induction bound generalizing handle with
  | zero => exact (Except.error.inj stopped).symm
  | succ bound ih =>
    unfold search at stopped
    split at stopped
    · cases stopped
    · split at stopped
      · cases stopped
      · split at stopped
        · exact ih stopped
        · cases stopped

theorem live_update (views : Views) (handle : Handle) (view : Object.View) {other : Handle}
    (live : views.Live other) : (views.update handle view).Live other := by
  by_cases same : other = handle
  · exact ⟨view, (update_apply ..).trans (if_pos same)⟩
  · obtain ⟨old, found⟩ := live
    exact ⟨old, ((update_apply ..).trans (if_neg same)).trans found⟩

theorem admits_undefined (views : Views) : views.Admits .undefined := fun _ member => by cases member

theorem all_of_handles (live : ∀ handle ∈ desc.handles, views.Live handle) :
    desc.All views.Admits := by
  unfold Descriptor.handles at live
  refine ⟨fun handle member => ?_, fun handle member => ?_, fun handle member => ?_⟩
  · exact live handle (List.mem_append_left _ (List.mem_append_left _ member))
  · exact live handle (List.mem_append_left _ (List.mem_append_right _ member))
  · exact live handle (List.mem_append_right _ member)

namespace Valid

/-- An object may be replaced by one, or joined by one, that names live objects only. -/
theorem update (valid : views.Valid) (handle : Handle) (sound : view.content.Sound)
    (content : view.content.Proper views.Admits)
    (prototype : ∀ prototype, view.prototype = some prototype → views.Live prototype) :
    (views.update handle view).Valid := by
  have weaker : ∀ value, views.Admits value → (views.update handle view).Admits value :=
    fun value admitted target member => live_update views handle view (admitted target member)
  refine ⟨fun other shown found => ?_, fun other shown found => ?_, fun other shown found => ?_⟩
  · rcases of_update found with ⟨_, rfl⟩ | ⟨_, old⟩
    · exact sound
    · exact valid.sound other shown old
  · rcases of_update found with ⟨_, rfl⟩ | ⟨_, old⟩
    · exact content.mono weaker
    · exact (valid.content other shown old).mono weaker
  · intro target linked
    apply live_update views handle view
    rcases of_update found with ⟨_, rfl⟩ | ⟨_, old⟩
    · exact prototype target linked
    · exact valid.prototype other shown old target linked

/-- A request that passes live handles leaves objects that name live objects only. -/
theorem step (valid : views.Valid) (live : ∀ handle ∈ request.handles, views.Live handle)
    (step : views.Step request reply after) : after.Valid := by
  cases request with
  | intern text => exact step.2 ▸ valid
  | newObject prototype =>
    obtain ⟨handle, _, _, rfl⟩ := step
    exact valid.update handle Record.sound_empty (fun _ _ found => by cases found)
      fun target linked => live target (Option.mem_toList.mpr linked)
  | newUniqueObject prototype =>
    obtain ⟨handle, _, _, rfl⟩ := step
    exact valid.update handle Record.sound_empty (fun _ _ found => by cases found)
      fun target linked => live target (Option.mem_toList.mpr linked)
  | newArray length =>
    obtain ⟨handle, _, _, rfl⟩ := step
    exact valid.update handle (Elements.View.sound_ofLength length)
      (Elements.View.proper_ofLength length) fun target linked => by cases linked
  | getOwn object key =>
    obtain ⟨_, _, _, rfl⟩ := step
    exact valid
  | getProperty object key =>
    obtain ⟨_, _, rfl⟩ := step
    exact valid
  | define object key desc raises =>
    obtain ⟨shown, bound, doomed, found, _, _, rfl⟩ := step
    have sound := valid.sound object shown found
    have given := all_of_handles fun handle member => live handle (List.mem_cons_of_mem _ member)
    exact valid.update object (sound.define bound doomed key desc shown.extensible)
      (Object.Content.proper_define views.admits_undefined sound
        (valid.content object shown found) given bound doomed key shown.extensible)
      (valid.prototype object shown found)
  | delete object key raises =>
    obtain ⟨shown, found, _, rfl⟩ := step
    have sound := valid.sound object shown found
    exact valid.update object (sound.delete key)
      (Object.Content.proper_delete sound (valid.content object shown found) key)
      (valid.prototype object shown found)
  | keys object filter =>
    obtain ⟨_, _, _, _, _, rfl⟩ := step
    exact valid
  | preventExtensions object =>
    obtain ⟨shown, found, _, rfl⟩ := step
    exact valid.update object (valid.sound object shown found) (valid.content object shown found)
      (valid.prototype object shown found)
  | setPrototype object prototype =>
    obtain ⟨shown, found, _, rfl⟩ := step
    exact valid.update object (valid.sound object shown found) (valid.content object shown found)
      fun target linked => live target (List.mem_cons_of_mem _ (Option.mem_toList.mpr linked))
  | makeUnique object => exact step.2 ▸ valid
  | makeTransitionable object => exact step.2 ▸ valid
  | collect roots => exact step.2.2
  | read object key => exact step.elim
  | put object key value raises => exact step.elim

end Valid

end Views

end Realm

end HiddenClass
