import HiddenClass.Proofs.Checked.Elements
import HiddenClass.Proofs.Realm.LookUp

/-!
The operations of a realm pass their checks and refuse what the plain ones refuse. An object that is
gone stops both.
-/

namespace HiddenClass

open HiddenClass.Action (Passes voice)

variable {guards : Guards} {counted raises : Bool} {α : Type}

/-! ### Objects -/

namespace Object

variable {object : Object} {chart : Chart} {view : View} {key : Key}

theorem passes_onStore {checked action : Store.Action α} {shapes : Shapes}
    (inner : Passes counted Store.Context.shapes checked action ⟨object.store, shapes⟩) :
    Passes counted Context.shapes (onStore checked) (onStore action) ⟨object, shapes⟩ := by
  unfold onStore
  refine Passes.focus ?_ rfl fun _ => rfl
  exact inner

theorem passes_onElements {checked action : Elements.Action α} {shapes : Shapes}
    {elements : Elements}
    (inner : Passes counted Elements.Context.shapes checked action
      ⟨elements, object.store, shapes⟩) :
    Passes counted Context.shapes (onElements elements checked) (onElements elements action)
      ⟨object, shapes⟩ := by
  unfold onElements
  refine Passes.focus ?_ rfl fun _ => rfl
  exact inner

namespace Holds

variable (holds : object.Holds chart view)
include holds

/-- The elements that an object is asked for are those of its view. -/
theorem elements_of_kind {elements : Elements} (kind : object.kind = .array elements) :
    ∃ array, view.content = .array array ∧ elements.Holds object.store chart array := by
  have held := holds.content
  cases content : view.content with
  | ordinary record =>
    rw [content] at held
    cases held.1.symm.trans kind
  | array array =>
    rw [content] at held
    obtain ⟨own, known, array_⟩ := held
    cases known.symm.trans kind
    exact ⟨array, rfl, array_⟩

theorem passes_getOwn (key : Key) :
    Passes guards.sizes Context.shapes (getOwnWith guards key) (Object.getOwn key)
      ⟨object, chart.shapes⟩ := by
  obtain ⟨record, stored⟩ := holds.content.store
  have looked : Passes guards.sizes Context.shapes
      (do return (← onStore (Store.slotWith? guards key)).map Slot.toDescriptor)
      (do return (← onStore (Store.slot? key)).map Slot.toDescriptor) ⟨object, chart.shapes⟩ :=
    (passes_onStore (stored.passes_slot key)).bind fun _ _ _ => Action.passes_pure _
  unfold getOwnWith Object.getOwn
  refine Passes.read ?_
  cases kind : object.kind with
  | ordinary =>
    simp only [place_ordinary kind]
    exact looked
  | array elements =>
    obtain ⟨array, _, held⟩ := holds.elements_of_kind kind
    simp only [place_array kind]
    cases key.role with
    | element index => exact passes_onElements (held.passes_getOwn index)
    | length => exact Action.passes_pure _
    | name => exact looked

theorem passes_define (sound : view.content.Sound) (key : Key) (desc : Descriptor) :
    Passes guards.sizes Context.shapes (defineWith guards raises key desc)
      (voice raises (Object.define key desc)) ⟨object, chart.shapes⟩ := by
  obtain ⟨record, stored⟩ := holds.content.store
  have written : Passes guards.sizes Context.shapes
      (onStore (Store.defineWith guards raises key desc object.extensible))
      (onStore (voice raises (Store.define key desc object.extensible))) ⟨object, chart.shapes⟩ :=
    passes_onStore (stored.passes_define key desc object.extensible)
  rw [← defineWith_off]
  unfold defineWith
  simp only [Store.defineWith_off, Elements.defineWith_off, Elements.defineLengthWith_off]
  refine Passes.read ?_
  dsimp only
  cases kind : object.kind with
  | ordinary =>
    simp only [place_ordinary kind]
    exact written
  | array elements =>
    obtain ⟨array, content, held⟩ := holds.elements_of_kind kind
    rw [content] at sound
    simp only [place_array kind]
    cases role : key.role with
    | element index =>
      exact passes_onElements
        (held.passes_define (Key.of_role_element role).2 desc object.extensible)
    | length => exact passes_onElements (held.passes_defineLength sound desc)
    | name => exact written

theorem passes_delete (key : Key) :
    Passes guards.sizes Context.shapes (deleteWith guards raises key)
      (voice raises (Object.delete key)) ⟨object, chart.shapes⟩ := by
  obtain ⟨record, stored⟩ := holds.content.store
  rw [← deleteWith_off]
  unfold deleteWith
  simp only [Store.deleteWith_off, Elements.deleteWith_off]
  refine Passes.read ?_
  cases kind : object.kind with
  | ordinary =>
    simp only [place_ordinary kind]
    exact passes_onStore (stored.passes_delete key)
  | array elements =>
    obtain ⟨array, _, held⟩ := holds.elements_of_kind kind
    simp only [place_array kind]
    cases key.role with
    | element index => exact passes_onElements (held.passes_delete index)
    | length => exact Action.passes_refuse _
    | name => exact passes_onStore (stored.passes_delete key)

theorem passes_keys (filter : KeyFilter) :
    Passes guards.sizes Context.shapes (keysWith guards filter) (Object.keys filter)
      ⟨object, chart.shapes⟩ := by
  obtain ⟨record, stored⟩ := holds.content.store
  refine (passes_onStore (stored.passes_keys filter)).bind fun listed after _ => Passes.read ?_
  cases after.object.elements? <;> exact Action.passes_pure _

end Holds

end Object

/-! ### Realms -/

namespace Realm

variable {realm after : Realm} {chart : Chart} {views : Views} {handle : Handle} {object : Object}
  {view : Object.View} {key : Key} {host : Host}

theorem passes_fetch (handle : Handle) :
    Passes counted Realm.shapes (fetch handle) (fetch handle) realm := by
  unfold fetch
  refine Passes.read ?_
  cases realm.objects.get? handle with
  | none => exact Action.passes_throw _
  | some object => exact Action.passes_pure object

theorem of_fetch (ran : fetch handle realm = .ok object after) :
    after = realm ∧ realm.objects.get? handle = some object := by
  unfold fetch at ran
  rw [Action.bind_ok (Action.get_apply _)] at ran
  cases found : realm.objects.get? handle with
  | none =>
    rw [found] at ran
    cases ran
  | some present =>
    rw [found] at ran
    cases ran
    exact ⟨rfl, rfl⟩

theorem passes_onShapes {checked action : Shapes.Action α}
    (inner : Passes counted id checked action realm.shapes) :
    Passes counted Realm.shapes (onShapes checked) (onShapes action) realm := by
  unfold onShapes
  exact Passes.focus inner rfl fun _ => rfl

/-- A host without native functions leaves the realm alone. -/
theorem call_none (accessor receiver : Value) (arguments : List Value) (realm : Realm) :
    ∃ answer : Except Error Value, call Host.none accessor receiver arguments realm =
      Action.settled (answer.mapError .error) realm := by
  cases accessor with
  | undefined => exact ⟨.ok .undefined, rfl⟩
  | _ => exact ⟨.error _, rfl⟩

/-- What a native function does is not checked. -/
theorem passes_call (silent : counted = true → host = Host.none) (accessor receiver : Value)
    (arguments : List Value) :
    Passes counted Realm.shapes (call host accessor receiver arguments)
      (call host accessor receiver arguments) realm := by
  refine ⟨fun on => ?_, fun _ => rfl⟩
  obtain ⟨answer, called⟩ := call_none accessor receiver arguments realm
  rw [silent on, Action.final_settled called]
  exact .refl _

namespace Holds

variable (guards) (holds : realm.Holds chart views)
include holds

/-! #### Making and collecting objects -/

theorem passes_allocate {shape : Handle} (live : chart.Live shape) (kind : ObjectKind)
    (prototype : Option Handle) :
    Passes guards.sizes Realm.shapes (allocateWith guards shape kind prototype)
      (allocate shape kind prototype) realm := by
  obtain ⟨capacity, reserved, _⟩ := Chart.capacity_ok live
  have made : Store.ofShape shape chart.shapes =
      .ok { shape, slots := Array.replicate capacity .vacant } chart.shapes :=
    Action.bind_ok reserved _
  have ran := holds.onShapes_ok made
  rw [← holds.shapes] at ran
  unfold allocateWith allocate
  refine Passes.skip ran ?_
  exact ((Action.passes_of_shapes rfl).guard fun _ => holds.sound.isReady).look

theorem passes_newObject (prototype : Option Handle) :
    Passes guards.sizes Realm.shapes (newObjectWith guards prototype) (newObject prototype) realm :=
  Passes.read (holds.passes_allocate guards holds.objectRoot.1.live .ordinary prototype)

theorem passes_newArray (length : Nat) :
    Passes guards.sizes Realm.shapes (newArrayWith guards length) (newArray length) realm :=
  Passes.read (holds.passes_allocate guards holds.arrayRoot.1.live _ none)

theorem passes_newUniqueObject (prototype : Option Handle) :
    Passes guards.sizes Realm.shapes (newUniqueObjectWith guards prototype)
      (newUniqueObject prototype) realm := by
  obtain ⟨own, after, ran, _, live, _, grown⟩ := Chart.newUnique_ok chart
  have made : Passes guards.sizes Realm.shapes (onShapes (Shapes.newUniqueWith guards))
      (onShapes Shapes.newUnique) realm :=
    passes_onShapes (holds.shapes ▸ Chart.passes_newUnique chart)
  unfold newUniqueObjectWith newUniqueObject
  refine made.step (holds.onShapes_ok ran) ?_
  exact (holds.extend grown).passes_allocate guards live .ordinary prototype

/-- Marking comes to an end, and what is freed was live. -/
theorem passes_collect (roots : List Handle) :
    Passes guards.sizes Realm.shapes (collectWith guards roots) (Realm.collect roots) realm := by
  have freed : ∀ {β : Type} {arena : Arena β}, arena.Sound → ∀ keep,
      (arena.retain keep).1 ≤ arena.size := by
    intro β arena sound keep
    rw [← Arena.length_handles sound]
    exact List.length_filter_le _ _
  obtain ⟨_, _, ended⟩ := mark_progress realm roots
  have charted : realm.shapes.arena.Sound := holds.shapes ▸ chart.charted.sound
  have swept : Passes guards.sizes Realm.shapes (Realm.collect roots) (Realm.collect roots)
      realm := by
    refine Action.passes_of_counts ⟨Nat.le_refl _, fun slim other present found => ?_⟩
    have kept := (Arena.get?_retain (realm.mark roots).hasShape other).symm.trans found
    split at kept
    · exact slim other present kept
    · cases kept
  refine Passes.look (Passes.guard (Passes.guard (Passes.guard swept ?_) ?_) ?_)
  · exact fun _ => freed charted _
  · exact fun _ => freed holds.sound _
  · exact fun _ => List.isEmpty_iff.mpr ended

/-! #### Own properties -/

/-- What passes on every object with the content of its view passes in the realm. -/
theorem passes_onObject {checked action : Object.Action α}
    (inner : ∀ object view, views handle = some view → object.Holds chart view →
      Passes counted Object.Context.shapes checked action ⟨object, chart.shapes⟩) :
    Passes counted Realm.shapes (onObject handle checked) (onObject handle action) realm := by
  unfold onObject
  refine (passes_fetch handle).bind fun object after ran => ?_
  obtain ⟨rfl, found⟩ := of_fetch ran
  obtain ⟨view, shown, held⟩ := holds.view handle object found
  refine Passes.focus ?_ rfl fun _ => rfl
  rw [holds.shapes]
  exact inner object view shown held

theorem passes_makeUnique (handle : Handle) :
    Passes guards.sizes Realm.shapes (makeUniqueWith guards handle) (makeUnique handle) realm := by
  unfold makeUniqueWith makeUnique
  refine (passes_fetch handle).bind fun object after ran => ?_
  obtain ⟨rfl, found⟩ := of_fetch ran
  obtain ⟨view, shown, held⟩ := holds.view handle object found
  obtain ⟨shape, shapeFound⟩ := Chart.live_iff.mp held.live
  have fetched := holds.onShapes_ok (Chart.fetch_ok shapeFound)
  rw [← holds.shapes] at fetched
  refine Passes.skip fetched (Passes.ite (fun _ => Action.passes_pure _) fun _ => ?_)
  exact (passes_onShapes (holds.shapes ▸ Chart.passes_newUniqueFrom held.live)).bind
    fun _ _ _ => Action.passes_of_shapes rfl

theorem passes_getOwn (handle : Handle) (key : Key) :
    Passes guards.sizes Realm.shapes (getOwnWith guards handle key) (getOwn handle key) realm :=
  holds.passes_onObject fun _ _ _ held => held.passes_getOwn key

theorem passes_keys (handle : Handle) (filter : KeyFilter) :
    Passes guards.sizes Realm.shapes (keysWith guards handle filter) (keys handle filter) realm :=
  holds.passes_onObject fun _ _ _ held => held.passes_keys filter

theorem passes_delete (handle : Handle) (key : Key) :
    Passes guards.sizes Realm.shapes (deleteWith guards raises handle key)
      (delete handle key raises) realm := by
  rw [← deleteWith_off]
  unfold deleteWith
  rw [Object.deleteWith_off]
  exact (holds.passes_onObject fun _ _ _ held => held.passes_delete key).map _

theorem passes_onDefine (valid : views.Valid) (handle : Handle) (key : Key) (desc : Descriptor) :
    Passes guards.sizes Realm.shapes (onObject handle (Object.defineWith guards raises key desc))
      (onObject handle (voice raises (Object.define key desc))) realm :=
  holds.passes_onObject fun _ view shown held =>
    held.passes_define (valid.sound handle view shown) key desc

theorem passes_define (valid : views.Valid) (handle : Handle) (key : Key) (desc : Descriptor) :
    Passes guards.sizes Realm.shapes (defineWith guards raises handle key desc)
      (define handle key desc raises) realm := by
  rw [← defineWith_off]
  unfold defineWith
  rw [Object.defineWith_off]
  exact (holds.passes_onDefine guards valid handle key desc).map _

/-! #### Inherited properties -/

/-- Looking at a property leads to a realm that shows what it showed before. -/
theorem looked {answer : Option Descriptor} (ran : getOwn handle key realm = .ok answer after) :
    ∃ later : Chart, after.Holds later views := by
  cases found : realm.objects.get? handle with
  | none =>
    rw [getOwn, onObject_of_gone found] at ran
    cases ran
  | some object =>
    obtain ⟨view, shown, _⟩ := holds.view handle object found
    obtain ⟨reached, later, own, held⟩ := holds.getOwn_ok shown key
    cases own.symm.trans ran
    exact ⟨later, held⟩

theorem passes_search (key : Key) (bound : Nat) (handle : Handle) :
    Passes guards.sizes Realm.shapes (searchWith guards key bound handle) (search key bound handle)
      realm := by
  induction bound generalizing handle realm chart with
  | zero => exact Action.passes_throw _
  | succ bound ih =>
    unfold searchWith search
    refine (holds.passes_getOwn guards handle key).bind fun own between ran => ?_
    obtain ⟨later, held⟩ := holds.looked ran
    cases own with
    | some desc => exact Action.passes_pure _
    | none =>
      refine (passes_fetch handle).bind fun object after fetched => ?_
      obtain ⟨rfl, _⟩ := of_fetch fetched
      cases object.prototype with
      | none => exact Action.passes_pure _
      | some prototype => exact ih held prototype

theorem passes_getProperty (handle : Handle) (key : Key) :
    Passes guards.sizes Realm.shapes (getPropertyWith guards handle key) (getProperty handle key)
      realm :=
  Passes.read (holds.passes_search guards key _ handle)

theorem passes_read (silent : guards.sizes = true → host = Host.none) (handle : Handle) (key : Key) :
    Passes guards.sizes Realm.shapes (readWith guards host handle key) (read host handle key)
      realm := by
  refine (holds.passes_getProperty guards handle key).bind fun found _ _ => ?_
  cases found with
  | none => exact Action.passes_pure _
  | some desc =>
    exact Passes.ite (fun _ => passes_call silent ..) fun _ => Action.passes_pure _

theorem passes_assignment (handle : Handle) (key : Key) :
    Passes guards.sizes Realm.shapes (assignmentWith guards handle key) (assignment handle key)
      realm := by
  unfold assignmentWith assignment
  refine (holds.passes_getOwn guards handle key).bind fun own between ran => ?_
  obtain ⟨later, held⟩ := holds.looked ran
  cases own with
  | some desc => exact Passes.ite (fun _ => Action.passes_pure _) fun _ => Action.passes_pure _
  | none =>
    refine (passes_fetch handle).bind fun object after fetched => ?_
    obtain ⟨rfl, _⟩ := of_fetch fetched
    cases object.prototype with
    | none => exact Passes.skip rfl (Action.passes_pure _)
    | some prototype =>
      refine (held.passes_getProperty guards prototype key).bind fun inherited _ _ => ?_
      cases inherited with
      | none => exact Action.passes_pure _
      | some desc => exact Passes.ite (fun _ => Action.passes_pure _) fun _ => Action.passes_pure _

/-- An assignment is decided on a realm that shows what it showed before. -/
theorem decided (valid : views.Valid) {decision : Assignment}
    (ran : assignment handle key realm = .ok decision after) :
    ∃ later : Chart, after.Holds later views := by
  cases found : realm.objects.get? handle with
  | none =>
    have stopped : getOwn handle key realm = .error (.stale handle) realm :=
      onObject_of_gone found _
    rw [assignment, Action.bind_apply, stopped] at ran
    cases ran
  | some object =>
    obtain ⟨view, shown, _⟩ := holds.view handle object found
    obtain ⟨_, looked, later, settled, held⟩ := holds.assignment_settled shown (Or.inr valid) key
    have reached := Action.final_settled settled
    rw [Action.final_ok ran] at reached
    exact ⟨later, reached ▸ held⟩

theorem passes_assign (valid : views.Valid) (silent : guards.sizes = true → host = Host.none)
    (handle : Handle) (key : Key) (value : Value) :
    Passes guards.sizes Realm.shapes (assignWith guards raises host handle key value)
      (voice raises (assign host handle key value)) realm := by
  rw [← assignWith_off]
  unfold assignWith
  rw [assignmentWith_off]
  simp only [Object.defineWith_off]
  refine (holds.passes_assignment guards handle key).bind fun decision between ran => ?_
  obtain ⟨later, held⟩ := holds.decided valid ran
  cases decision with
  | refused => exact Action.passes_refuse _
  | setter function => exact (passes_call silent ..).bind fun _ _ _ => Action.passes_pure _
  | overwrite | create => exact held.passes_onDefine guards valid handle key _

theorem passes_put (valid : views.Valid) (silent : guards.sizes = true → host = Host.none)
    (handle : Handle) (key : Key) (value : Value) :
    Passes guards.sizes Realm.shapes (putWith guards raises host handle key value)
      (put host handle key value raises) realm := by
  rw [← putWith_off]
  unfold putWith
  rw [assignWith_off]
  exact (holds.passes_assign guards valid silent handle key value).map _

/-- A request passes all checks but those of sizes, whatever its handles and whatever the host. -/
theorem performWith_eq (valid : views.Valid) (crash : Fault) (host : Host) (request : Request) :
    request.performWith (.places crash) host realm = request.perform host realm := by
  have silent : (Guards.places crash).sizes = true → host = Host.none := nofun
  have same : ∀ {β : Type} {checked action : Action β},
      Passes (Guards.places crash).sizes Realm.shapes checked action realm →
      ∀ answer : β → Answer, (do return answer (← checked) : Action Answer) realm =
        (do return answer (← action) : Action Answer) realm :=
    fun passes answer => (passes.map answer).same nofun
  cases request with
  | newObject prototype => exact same (holds.passes_newObject _ prototype) _
  | newUniqueObject prototype => exact same (holds.passes_newUniqueObject _ prototype) _
  | newArray length => exact same (holds.passes_newArray _ length) _
  | getOwn object key => exact same (holds.passes_getOwn _ object key) _
  | getProperty object key => exact same (holds.passes_getProperty _ object key) _
  | read object key => exact same (holds.passes_read _ silent object key) _
  | put object key value raises => exact same (holds.passes_put _ valid silent object key value) _
  | define object key desc raises => exact same (holds.passes_define _ valid object key desc) _
  | delete object key raises => exact same (holds.passes_delete _ object key) _
  | keys object filter => exact same (holds.passes_keys _ object filter) _
  | makeUnique object => exact same (holds.passes_makeUnique _ object) fun _ => .done
  | collect roots => exact same (holds.passes_collect _ roots) _
  | _ => rfl

end Holds

end Realm

end HiddenClass
