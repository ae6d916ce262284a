import HiddenClass.Proofs.Realm.Views

/-!
The requests that call no native function and collect nothing do to a realm what is seen of them.
-/

namespace HiddenClass.Realm

/-- The realm shows the views. A shape that is not open to sharing has one object. -/
structure Holds (realm : Realm) (chart : Chart) (views : Views) : Prop where
  shapes : realm.shapes = chart.shapes
  sound : realm.objects.Sound
  view : ∀ handle object, realm.objects.get? handle = some object →
    ∃ view, views handle = some view ∧ object.Holds chart view
  gone : ∀ handle, realm.objects.get? handle = none → views handle = none
  apart : ∀ first second object other, realm.objects.get? first = some object →
    realm.objects.get? second = some other → object.store.shape = other.store.shape →
    first = second ∨ chart.Shared object.store.shape
  objectRoot : chart.Shared realm.objectRoot ∧ chart.layouts realm.objectRoot = {}
  arrayRoot : chart.Shared realm.arrayRoot ∧ chart.layouts realm.arrayRoot = {}

variable {realm : Realm} {chart after : Chart} {views : Views} {handle : Handle} {object moved : Object}
  {view : Object.View} {α : Type}

theorem fetch_ok (found : realm.objects.get? handle = some object) :
    fetch handle realm = .ok object realm := by
  unfold fetch
  rw [Action.bind_ok (Action.get_apply _), found]
  rfl

/-- Nothing is done to an object that is gone. -/
theorem onObject_of_gone (gone : realm.objects.get? handle = none) (action : Object.Action α) :
    onObject handle action realm = .error (.stale handle) realm := by
  have stale : fetch handle realm = .error (.stale handle) realm := by
    unfold fetch
    rw [Action.bind_ok (Action.get_apply _), gone]
    rfl
  unfold onObject
  rw [Action.bind_apply, stale]

namespace Holds

theorem live_iff (holds : realm.Holds chart views) :
    views.Live handle ↔ realm.objects.contains handle = true := by
  rw [Arena.contains_iff]
  constructor
  · rintro ⟨view, shown⟩
    cases found : realm.objects.get? handle with
    | none =>
      rw [holds.gone handle found] at shown
      cases shown
    | some object => exact ⟨object, rfl⟩
  · rintro ⟨object, found⟩
    obtain ⟨view, shown, _⟩ := holds.view handle object found
    exact ⟨view, shown⟩

theorem find (holds : realm.Holds chart views) (shown : views handle = some view) :
    ∃ object, realm.objects.get? handle = some object ∧ object.Holds chart view := by
  obtain ⟨object, found⟩ := Arena.contains_iff.mp (holds.live_iff.mp ⟨view, shown⟩)
  obtain ⟨same, shownHere, held⟩ := holds.view handle object found
  rw [shown] at shownHere
  exact ⟨object, found, Option.some.inj shownHere ▸ held⟩

/-- Shapes may come to show more. -/
theorem extend (holds : realm.Holds chart views) (grown : Chart.Extends chart after) :
    Holds { realm with shapes := after.shapes } after views where
  shapes := rfl
  sound := holds.sound
  view := fun handle object found => by
    obtain ⟨view, shown, held⟩ := holds.view handle object found
    exact ⟨view, shown, held.keep (grown.spares held.live)⟩
  gone := holds.gone
  apart := fun first second object other found foundOther same =>
    (holds.apart first second object other found foundOther same).imp_right
      (grown.shared object.store.shape)
  objectRoot := ⟨grown.shared _ holds.objectRoot.1,
    (grown.layouts _ holds.objectRoot.1.live).trans holds.objectRoot.2⟩
  arrayRoot := ⟨grown.shared _ holds.arrayRoot.1,
    (grown.layouts _ holds.arrayRoot.1.live).trans holds.arrayRoot.2⟩

/-- One object may be put at a handle if the others stay as they are seen and none of them has the
shape of the new one to itself. -/
theorem place {objects : Arena Object} (holds : realm.Holds chart views) (sound : objects.Sound)
    (cells : ∀ other, objects.get? other =
      if other = handle then some moved else realm.objects.get? other)
    (held : moved.Holds after view)
    (kept : ∀ other neighbour shown, other ≠ handle → realm.objects.get? other = some neighbour →
      neighbour.Holds chart shown → neighbour.Holds after shown)
    (alone : ∀ other neighbour, other ≠ handle → realm.objects.get? other = some neighbour →
      neighbour.store.shape = moved.store.shape → after.Shared moved.store.shape)
    (shared : ∀ shape, chart.Shared shape → after.Shared shape)
    (layouts : ∀ shape, chart.Shared shape → after.layouts shape = chart.layouts shape) :
    Holds { realm with objects, shapes := after.shapes } after (views.update handle view) := by
  have rootKept : ∀ root, chart.Shared root ∧ chart.layouts root = {} →
      after.Shared root ∧ after.layouts root = {} :=
    fun root given => ⟨shared root given.1, (layouts root given.1).trans given.2⟩
  refine ⟨rfl, sound, ?_, ?_, ?_, rootKept _ holds.objectRoot, rootKept _ holds.arrayRoot⟩
  · intro other present presentFound
    rw [cells] at presentFound
    rw [Views.update_apply]
    by_cases here : other = handle
    · rw [if_pos here] at presentFound
      rw [if_pos here]
      exact ⟨view, rfl, Option.some.inj presentFound ▸ held⟩
    · rw [if_neg here] at presentFound
      rw [if_neg here]
      obtain ⟨shown, shownHere, heldHere⟩ := holds.view other present presentFound
      exact ⟨shown, shownHere, kept other present shown here presentFound heldHere⟩
  · intro other absent
    rw [cells] at absent
    by_cases here : other = handle
    · rw [if_pos here] at absent
      cases absent
    · rw [if_neg here] at absent
      rw [Views.update_apply, if_neg here]
      exact holds.gone other absent
  · intro first second a b foundFirst foundSecond same
    rw [cells] at foundFirst foundSecond
    by_cases firstHere : first = handle
    · by_cases secondHere : second = handle
      · exact Or.inl (firstHere.trans secondHere.symm)
      · rw [if_pos firstHere] at foundFirst
        rw [if_neg secondHere] at foundSecond
        cases foundFirst
        exact Or.inr (alone second b secondHere foundSecond same.symm)
    · rw [if_neg firstHere] at foundFirst
      by_cases secondHere : second = handle
      · rw [if_pos secondHere] at foundSecond
        cases foundSecond
        rw [same]
        exact Or.inr (alone first a firstHere foundFirst same)
      · rw [if_neg secondHere] at foundSecond
        exact (holds.apart first second a b foundFirst foundSecond same).imp_right (shared _)

/-- One object may be replaced by what it has become. -/
theorem set (holds : realm.Holds chart views) (found : realm.objects.get? handle = some object)
    (held : moved.Holds after view)
    (moves : Chart.Moves chart after object.store.shape moved.store.shape) :
    Holds { realm with objects := realm.objects.set handle moved, shapes := after.shapes } after
      (views.update handle view) := by
  have spared : ∀ other neighbour, other ≠ handle → realm.objects.get? other = some neighbour →
      neighbour.store.shape = object.store.shape → chart.Shared neighbour.store.shape := by
    intro other neighbour different present same
    exact (holds.apart other handle neighbour object present found same).resolve_left different
  refine holds.place (Arena.sound_set holds.sound handle moved)
    (Arena.get?_set_live (Arena.contains_of_get? found) moved) held ?_ ?_ moves.shared ?_
  · intro other neighbour shown different present neighbourHeld
    exact neighbourHeld.keep
      (moves.toEdits.spares neighbourHeld.live (spared other neighbour different present))
  · intro other neighbour different present same
    rcases moves.owner with kept | shared | fresh
    · rw [← same]
      exact moves.shared _ (spared other neighbour different present (same.trans kept))
    · exact shared
    · obtain ⟨_, _, neighbourHeld⟩ := holds.view other neighbour present
      exact absurd (same ▸ neighbourHeld.live) fresh
  · exact fun shape given => moves.layouts shape given.live fun _ => given

theorem onObject_eq (holds : realm.Holds chart views)
    (found : realm.objects.get? handle = some object) {action : Object.Action α}
    {answer : Except Fault α}
    (ran : action ⟨object, chart.shapes⟩ = Action.settled answer ⟨moved, after.shapes⟩) :
    onObject handle action realm = Action.settled answer
      { realm with objects := realm.objects.set handle moved, shapes := after.shapes } := by
  unfold onObject
  rw [Action.bind_ok (fetch_ok found), Action.focus, holds.shapes, ran]
  cases answer <;> rfl

/-- What an action does to an object, it does to the object in the realm. -/
theorem onObject_ok (holds : realm.Holds chart views)
    (found : realm.objects.get? handle = some object) {action : Object.Action α}
    {answer : Except Fault α} (concludes : Object.Concludes action object chart answer view) :
    ∃ (later : Realm) (after : Chart),
      onObject handle action realm = Action.settled answer later ∧
      later.Holds after (views.update handle view) := by
  obtain ⟨moved, after, ran, held, moves⟩ := concludes
  exact ⟨_, after, holds.onObject_eq found ran, holds.set found held moves⟩

theorem with_chart_shapes (holds : realm.Holds chart views) (objects : Arena Object) :
    { realm with objects } = { realm with objects, shapes := chart.shapes } := by
  rw [← holds.shapes]

/-- An object may join under the handle that the arena gives out next, at a shape without names that
is open to sharing or no object's. -/
theorem join (holds : realm.Holds chart views) (held : moved.Holds chart view)
    (free : chart.Shared moved.store.shape ∨ ∀ other object,
      realm.objects.get? other = some object → object.store.shape ≠ moved.store.shape) :
    views (realm.objects.alloc moved).1 = none ∧
      Holds { realm with objects := (realm.objects.alloc moved).2 } chart
        (views.update (realm.objects.alloc moved).1 view) := by
  refine ⟨holds.gone _ (Arena.get?_alloc_fresh holds.sound moved), ?_⟩
  rw [holds.with_chart_shapes]
  refine holds.place (Arena.sound_alloc holds.sound moved) (Arena.get?_alloc holds.sound moved) held
    (fun _ _ _ _ _ same => same) ?_ (fun _ shared => shared) fun _ _ => rfl
  intro other neighbour _ present same
  exact free.resolve_right fun none => none other neighbour present same

theorem onShapes_ok (holds : realm.Holds chart views) {action : Shapes.Action α} {answer : α}
    {later : Shapes} (ran : action chart.shapes = .ok answer later) :
    onShapes action realm = .ok answer { realm with shapes := later } := by
  unfold onShapes
  rw [← holds.shapes] at ran
  exact Action.focus_ok ran

theorem slotAt_vacant (shape : Handle) (size offset : Nat) :
    Store.slotAt { shape, slots := Array.replicate size .vacant } offset = .vacant := by
  unfold Store.slotAt
  rw [Array.getElem?_replicate]
  split <;> rfl

/-- A new object joins with vacant slots. -/
theorem allocate_eq (holds : realm.Holds chart views) {shape : Handle} (live : chart.Live shape)
    (kind : ObjectKind) (prototype : Option Handle) :
    ∃ (capacity : Nat) (object : Object),
      object = { store := { shape, slots := Array.replicate capacity .vacant }, kind, prototype } ∧
      allocate shape kind prototype realm = .ok (realm.objects.alloc object).1
        { realm with objects := (realm.objects.alloc object).2 } := by
  obtain ⟨capacity, reserved, _⟩ := Chart.capacity_ok live
  have made : Store.ofShape shape chart.shapes =
      .ok { shape, slots := Array.replicate capacity .vacant } chart.shapes := by
    unfold Store.ofShape
    rw [Action.bind_ok reserved]
    rfl
  refine ⟨capacity, _, rfl, ?_⟩
  unfold allocate
  rw [Action.bind_ok (holds.onShapes_ok made), ← holds.shapes]
  rfl

/-- A new object starts empty. -/
theorem allocate_ok (holds : realm.Holds chart views) {shape : Handle} (live : chart.Live shape)
    (empty : chart.layouts shape = {})
    (free : chart.Shared shape ∨ ∀ other object,
      realm.objects.get? other = some object → object.store.shape ≠ shape)
    (kind : ObjectKind) (content : Object.Content) (prototype : Option Handle)
    (held : ∀ store : Store, store.shape = shape → store.Holds chart {} →
      content.Holds { store, kind, prototype } chart) :
    ∃ (handle : Handle) (later : Realm),
      allocate shape kind prototype realm = .ok handle later ∧ views handle = none ∧
      later.Holds chart (views.update handle { content, prototype }) := by
  obtain ⟨capacity, object, rfl, ran⟩ := holds.allocate_eq live kind prototype
  let store : Store := { shape, slots := Array.replicate capacity .vacant }
  have storeHolds : store.Holds chart {} :=
    ⟨live, empty, Nat.zero_le _, slotAt_vacant shape capacity⟩
  let object : Object := { store, kind, prototype }
  have objectHolds : object.Holds chart { content, prototype } :=
    ⟨held store rfl storeHolds, rfl, rfl⟩
  obtain ⟨fresh, joined⟩ := holds.join objectHolds free
  exact ⟨_, _, ran, fresh, joined⟩

theorem newObject_ok (holds : realm.Holds chart views) (prototype : Option Handle) :
    ∃ (handle : Handle) (later : Realm),
      newObject prototype realm = .ok handle later ∧ views handle = none ∧
      later.Holds chart (views.update handle { content := .ordinary {}, prototype }) := by
  have root := holds.objectRoot
  unfold newObject
  rw [Action.bind_ok (Action.get_apply _)]
  exact holds.allocate_ok root.1.live root.2 (Or.inl root.1) .ordinary (.ordinary {}) prototype
    fun _ _ held => ⟨rfl, held⟩

theorem newUniqueObject_ok (holds : realm.Holds chart views) (prototype : Option Handle) :
    ∃ (handle : Handle) (later : Realm) (after : Chart),
      newUniqueObject prototype realm = .ok handle later ∧ views handle = none ∧
      later.Holds after (views.update handle { content := .ordinary {}, prototype }) := by
  obtain ⟨own, after, ran, fresh, live, empty, grown⟩ := Chart.newUnique_ok chart
  have alone : ∀ other object, realm.objects.get? other = some object →
      object.store.shape ≠ own := by
    intro other object found same
    obtain ⟨view, _, held⟩ := holds.view other object found
    exact fresh (same ▸ held.live)
  unfold newUniqueObject
  rw [Action.bind_ok (holds.onShapes_ok ran)]
  obtain ⟨handle, later, allocated, gone, held⟩ :=
    (holds.extend grown).allocate_ok live empty (Or.inr alone) .ordinary (.ordinary {}) prototype
      fun _ _ held => ⟨rfl, held⟩
  exact ⟨handle, later, after, allocated, gone, held⟩

theorem newArray_ok (holds : realm.Holds chart views) (length : Nat) :
    ∃ (handle : Handle) (later : Realm),
      newArray length realm = .ok handle later ∧ views handle = none ∧
      later.Holds chart
        (views.update handle { content := .array (.ofLength length), prototype := none }) := by
  have root := holds.arrayRoot
  unfold newArray
  rw [Action.bind_ok (Action.get_apply _)]
  refine holds.allocate_ok root.1.live root.2 (Or.inl root.1)
    (.array (.ofLength length realm.config)) (.array (.ofLength length)) none fun store _ held => ?_
  exact ⟨_, rfl, Elements.sound_ofLength length realm.config,
    Elements.element_ofLength length realm.config, rfl, rfl, rfl, held⟩

/-- Replacing an object by one of the same shape. -/
theorem replace_ok (holds : realm.Holds chart views)
    (found : realm.objects.get? handle = some object) (held : moved.Holds chart view)
    (same : moved.store.shape = object.store.shape) :
    ∃ later : Realm, replace handle moved realm = .ok () later ∧
      later.Holds chart (views.update handle view) := by
  have moves : Chart.Moves chart chart object.store.shape moved.store.shape := by
    rw [same]
    exact (Chart.Extends.refl chart).moves (same ▸ held.live)
  have set := holds.set found held moves
  rw [← holds.with_chart_shapes] at set
  exact ⟨_, rfl, set⟩

theorem preventExtensions_ok (holds : realm.Holds chart views) (shown : views handle = some view) :
    ∃ later : Realm, preventExtensions handle realm = .ok () later ∧
      later.Holds chart (views.update handle { view with extensible := false }) := by
  obtain ⟨object, found, held⟩ := holds.find shown
  unfold preventExtensions
  rw [Action.bind_ok (fetch_ok found)]
  exact holds.replace_ok found ⟨held.content.congr rfl rfl, rfl, held.prototype⟩ rfl

theorem setPrototype_ok (holds : realm.Holds chart views) (shown : views handle = some view)
    (prototype : Option Handle) :
    ∃ later : Realm, setPrototype handle prototype realm = .ok () later ∧
      later.Holds chart (views.update handle { view with prototype }) := by
  obtain ⟨object, found, held⟩ := holds.find shown
  unfold setPrototype
  rw [Action.bind_ok (fetch_ok found)]
  exact holds.replace_ok found ⟨held.content.congr rfl rfl, held.extensible, rfl⟩ rfl

theorem update_self (views : Views) (shown : views handle = some view) :
    views.update handle view = views := by
  rw [Views.update, ← shown]
  exact Function.update_eq_self handle views

/-- A change that shows nothing of itself. -/
theorem set_same (holds : realm.Holds chart views) (shown : views handle = some view)
    (found : realm.objects.get? handle = some object) (held : moved.Holds after view)
    (moves : Chart.Moves chart after object.store.shape moved.store.shape) :
    Holds { realm with objects := realm.objects.set handle moved, shapes := after.shapes } after
      views := by
  have set := holds.set found held moves
  rw [update_self views shown] at set
  exact set

theorem makeUnique_ok (holds : realm.Holds chart views) (shown : views handle = some view) :
    ∃ (later : Realm) (after : Chart), makeUnique handle realm = .ok () later ∧
      later.Holds after views := by
  obtain ⟨object, found, held⟩ := holds.find shown
  obtain ⟨shape, shapeFound⟩ := Chart.live_iff.mp held.live
  have fetched := holds.onShapes_ok (Chart.fetch_ok shapeFound)
  rw [← holds.shapes] at fetched
  unfold makeUnique
  rw [Action.bind_ok (fetch_ok found), Action.bind_ok fetched]
  by_cases unique : shape.isUnique = true
  · rw [if_pos unique]
    exact ⟨realm, chart, rfl, holds⟩
  · obtain ⟨own, after, ran, fresh, live, layout, grown⟩ := Chart.newUniqueFrom_ok held.live
    rw [if_neg unique, Action.bind_ok (holds.onShapes_ok ran)]
    refine ⟨_, after, rfl, holds.set_same shown found ?_ ?_⟩
    · exact ⟨held.content.reshape live layout, held.extensible, held.prototype⟩
    · exact ⟨grown.edits _, grown.grows, live, Or.inr (Or.inr fresh)⟩

theorem makeTransitionable_ok (holds : realm.Holds chart views) (shown : views handle = some view) :
    ∃ (later : Realm) (after : Chart), makeTransitionable handle realm = .ok () later ∧
      later.Holds after views := by
  obtain ⟨object, found, held⟩ := holds.find shown
  obtain ⟨after, ran, _, grown, _⟩ := Chart.share_ok held.live
  have shape : shapeOf handle realm = .ok object.store.shape realm :=
    Action.bind_ok (fetch_ok found) _
  refine ⟨_, after, ?_, holds.extend grown⟩
  unfold makeTransitionable
  rw [Action.bind_ok shape]
  exact holds.onShapes_ok ran

/-! ### Own properties -/

theorem getOwn_ok (holds : realm.Holds chart views) (shown : views handle = some view) (key : Key) :
    ∃ (later : Realm) (after : Chart), getOwn handle key realm = .ok (view.getOwn key) later ∧
      later.Holds after views := by
  obtain ⟨object, found, held⟩ := holds.find shown
  obtain ⟨later, after, ran, heldAfter⟩ := holds.onObject_ok found (held.getOwn key)
  rw [update_self views shown] at heldAfter
  exact ⟨later, after, ran, heldAfter⟩

theorem keys_ok (holds : realm.Holds chart views) (shown : views handle = some view)
    (filter : KeyFilter) :
    ∃ (listed : List Key) (later : Realm) (after : Chart), view.content.Lists filter listed ∧
      keys handle filter realm = .ok listed later ∧ later.Holds after views := by
  obtain ⟨object, found, held⟩ := holds.find shown
  obtain ⟨listed, lists, concludes⟩ := held.keys filter
  obtain ⟨later, after, ran, heldAfter⟩ := holds.onObject_ok found concludes
  rw [update_self views shown] at heldAfter
  exact ⟨listed, later, after, lists, ran, heldAfter⟩

/-- The objects of a chain of live ones are searched in turn. -/
theorem search_settled (holds : realm.Holds chart views) (valid : views.Valid)
    (live : views.Live handle) (key : Key) (bound : Nat) :
    ∃ (later : Realm) (after : Chart),
      search key bound handle realm = Action.settled (views.search key bound handle) later ∧
      later.Holds after views := by
  induction bound generalizing handle realm chart with
  | zero => exact ⟨realm, chart, rfl, holds⟩
  | succ bound ih =>
    obtain ⟨view, shown⟩ := live
    obtain ⟨later, after, ran, held⟩ := holds.getOwn_ok shown key
    unfold search Views.search
    rw [Action.bind_ok ran, shown]
    simp only
    cases own : view.getOwn key with
    | some desc => exact ⟨later, after, rfl, held⟩
    | none =>
      obtain ⟨object, found, objectHeld⟩ := held.find shown
      simp only
      rw [Action.bind_ok (fetch_ok found), objectHeld.prototype]
      cases linked : view.prototype with
      | none => exact ⟨later, after, rfl, held⟩
      | some prototype => exact ih held (valid.prototype handle view shown prototype linked)

theorem getProperty_settled (holds : realm.Holds chart views) (valid : views.Valid)
    (live : views.Live handle) (key : Key) :
    ∃ (later : Realm) (after : Chart),
      getProperty handle key realm =
        Action.settled (views.search key (realm.objects.capacity + 1) handle) later ∧
      later.Holds after views :=
  holds.search_settled valid live key (realm.objects.capacity + 1)

end Holds

/-! ### Requests -/

variable {host : Host} {request : Request}

theorem outcome_ok {answer : Answer} {later : Realm}
    (ran : request.perform host realm = .ok answer later) :
    request.outcome host realm = (.answered answer, later) := by
  rw [Request.outcome, ran]

theorem outcome_getProperty {found : Except Fault (Option Descriptor)} {key : Key} {later : Realm}
    (ran : getProperty handle key realm = Action.settled found later) (host : Host) :
    (Request.getProperty handle key).outcome host realm = (.ofSearch found, later) := by
  rw [Request.outcome, Request.perform, Action.bind_apply, ran]
  cases found <;> rfl

theorem outcome_report {action : Action Verdict} {answer : Except Fault Verdict} {later : Realm}
    (ran : action realm = Action.settled answer later) (raises : Bool)
    (same : request.perform host = do return .accepted (← Action.report raises action)) :
    request.outcome host realm = (.ofVerdict raises answer, later) := by
  rw [Request.outcome, same]
  cases answer with
  | error error =>
    rw [Action.bind_apply, Action.report_error ran]
    rfl
  | ok verdict =>
    rw [Action.bind_apply, Action.report_ok ran, Action.ending, Reply.ofVerdict]
    cases verdict.report raises <;> rfl

/-- An assignment that comes to a definition ends as the definition does. -/
theorem outcome_put_of_define {looked : Realm} {key : Key} {value : Value} {desc : Descriptor}
    (assigned : assign host handle key value realm = onObject handle (Object.define key desc) looked)
    (raises : Bool) :
    (Request.put handle key value raises).outcome host realm =
      (Request.define handle key desc raises).outcome host looked := by
  have reported : put host handle key value raises realm = define handle key desc raises looked := by
    unfold put define Action.report
    rw [Action.bind_apply, Action.bind_apply, assigned]
  unfold Request.outcome Request.perform
  simp only [Action.bind_apply, reported]

/-- An assignment that may not be made is reported as one. -/
theorem outcome_put_of_refused {looked : Realm} {key : Key}
    (assigned : assignment handle key realm = .ok .refused looked) (host : Host) (value : Value)
    (raises : Bool) :
    (Request.put handle key value raises).outcome host realm =
      (.ofVerdict raises (.ok (.rejected .notAssignable)), looked) := by
  have ran : assign host handle key value realm =
      Action.settled (.ok (.rejected .notAssignable)) looked := by
    rw [assign, Action.bind_ok assigned]
    rfl
  exact outcome_report ran raises rfl

section Own

variable (holds : realm.Holds chart views) (host : Host) (shown : views handle = some view)
include holds shown

theorem Holds.outcome_getOwn (key : Key) :
    ∃ after : Chart, ((Request.getOwn handle key).outcome host realm).1 =
        .answered (.descriptor (view.getOwn key)) ∧
      ((Request.getOwn handle key).outcome host realm).2.Holds after views := by
  obtain ⟨later, after, ran, held⟩ := holds.getOwn_ok shown key
  have ranHere : (Request.getOwn handle key).perform host realm =
      .ok (.descriptor (view.getOwn key)) later := Action.bind_ok ran _
  rw [outcome_ok ranHere]
  exact ⟨after, rfl, held⟩

theorem Holds.outcome_define (sound : view.content.Sound) (key : Key) (desc : Descriptor)
    (raises : Bool) :
    ∃ (after : Chart) (bound : Nat) (doomed : List Nat),
      (∀ length, key = Key.length → Elements.lengthOf? desc.value = some length →
        view.content.Doomed length doomed) ∧
      ((Request.define handle key desc raises).outcome host realm).1 =
        .ofVerdict raises (view.define bound doomed key desc).1 ∧
      ((Request.define handle key desc raises).outcome host realm).2.Holds after
        (views.update handle (view.define bound doomed key desc).2) := by
  obtain ⟨object, found, objectHeld⟩ := holds.find shown
  obtain ⟨bound, doomed, listed, concludes⟩ := objectHeld.define sound key desc
  obtain ⟨later, after, ran, held⟩ := holds.onObject_ok found concludes
  rw [outcome_report ran raises rfl]
  exact ⟨after, bound, doomed, listed, rfl, held⟩

theorem Holds.outcome_delete (key : Key) (raises : Bool) :
    ∃ after : Chart, ((Request.delete handle key raises).outcome host realm).1 =
        .ofVerdict raises (.ok (view.delete key).1) ∧
      ((Request.delete handle key raises).outcome host realm).2.Holds after
        (views.update handle (view.delete key).2) := by
  obtain ⟨object, found, objectHeld⟩ := holds.find shown
  obtain ⟨later, after, ran, held⟩ := holds.onObject_ok found (objectHeld.delete key)
  rw [outcome_report ran raises rfl]
  exact ⟨after, rfl, held⟩

theorem Holds.outcome_keys (filter : KeyFilter) :
    ∃ (after : Chart) (listed : List Key), view.content.Lists filter listed ∧
      ((Request.keys handle filter).outcome host realm).1 = .answered (.keys listed) ∧
      ((Request.keys handle filter).outcome host realm).2.Holds after views := by
  obtain ⟨listed, later, after, lists, ran, held⟩ := holds.keys_ok shown filter
  have ranHere : (Request.keys handle filter).perform host realm = .ok (.keys listed) later :=
    Action.bind_ok ran _
  rw [outcome_ok ranHere]
  exact ⟨after, listed, lists, rfl, held⟩

theorem Holds.outcome_preventExtensions :
    ((Request.preventExtensions handle).outcome host realm).1 = .answered .done ∧
      ((Request.preventExtensions handle).outcome host realm).2.Holds chart
        (views.update handle { view with extensible := false }) := by
  obtain ⟨later, ran, held⟩ := holds.preventExtensions_ok shown
  have ranHere : (Request.preventExtensions handle).perform host realm = .ok .done later :=
    Action.bind_ok ran _
  rw [outcome_ok ranHere]
  exact ⟨rfl, held⟩

end Own

/-- A request that collects nothing does what is seen of it. -/
theorem Holds.simulate (holds : realm.Holds chart views) (host : Host) (valid : views.Valid)
    (live : ∀ handle ∈ request.handles, views.Live handle) (direct : request.isDirect = true)
    (staying : ∀ roots, request ≠ .collect roots) :
    ∃ (after : Chart) (later : Views), views.Step request (request.outcome host realm).1 later ∧
      (request.outcome host realm).2.Holds after later := by
  cases request with
  | read object key => cases direct
  | put object key value raises => cases direct
  | collect roots => exact absurd rfl (staying roots)
  | intern text =>
    refine ⟨chart, views, ⟨⟨_, rfl⟩, rfl⟩, ?_⟩
    exact ⟨holds.shapes, holds.sound, holds.view, holds.gone, holds.apart, holds.objectRoot,
      holds.arrayRoot⟩
  | newObject prototype =>
    obtain ⟨handle, later, ran, fresh, held⟩ := holds.newObject_ok prototype
    have ranHere : Request.perform host (.newObject prototype) realm = .ok (.handle handle) later :=
      Action.bind_ok ran _
    rw [outcome_ok ranHere]
    exact ⟨chart, _, ⟨handle, fresh, rfl, rfl⟩, held⟩
  | newUniqueObject prototype =>
    obtain ⟨handle, later, after, ran, fresh, held⟩ := holds.newUniqueObject_ok prototype
    have ranHere : Request.perform host (.newUniqueObject prototype) realm =
        .ok (.handle handle) later := Action.bind_ok ran _
    rw [outcome_ok ranHere]
    exact ⟨after, _, ⟨handle, fresh, rfl, rfl⟩, held⟩
  | newArray length =>
    obtain ⟨handle, later, ran, fresh, held⟩ := holds.newArray_ok length
    have ranHere : Request.perform host (.newArray length) realm = .ok (.handle handle) later :=
      Action.bind_ok ran _
    rw [outcome_ok ranHere]
    exact ⟨chart, _, ⟨handle, fresh, rfl, rfl⟩, held⟩
  | getOwn object key =>
    obtain ⟨view, shown⟩ := live object (List.mem_singleton_self object)
    obtain ⟨after, reply, held⟩ := holds.outcome_getOwn host shown key
    exact ⟨after, views, ⟨view, shown, reply, rfl⟩, held⟩
  | getProperty object key =>
    obtain ⟨later, after, ran, held⟩ :=
      holds.getProperty_settled valid (live object (List.mem_singleton_self object)) key
    rw [outcome_getProperty ran]
    exact ⟨after, views, ⟨_, rfl, rfl⟩, held⟩
  | define object key desc raises =>
    obtain ⟨view, shown⟩ := live object (List.mem_cons_self ..)
    obtain ⟨after, bound, doomed, listed, reply, held⟩ :=
      holds.outcome_define host shown (valid.sound object view shown) key desc raises
    exact ⟨after, _, ⟨view, bound, doomed, shown, listed, reply, rfl⟩, held⟩
  | delete object key raises =>
    obtain ⟨view, shown⟩ := live object (List.mem_singleton_self object)
    obtain ⟨after, reply, held⟩ := holds.outcome_delete host shown key raises
    exact ⟨after, _, ⟨view, shown, reply, rfl⟩, held⟩
  | keys object filter =>
    obtain ⟨view, shown⟩ := live object (List.mem_singleton_self object)
    obtain ⟨after, listed, lists, reply, held⟩ := holds.outcome_keys host shown filter
    exact ⟨after, views, ⟨view, listed, shown, lists, reply, rfl⟩, held⟩
  | preventExtensions object =>
    obtain ⟨view, shown⟩ := live object (List.mem_singleton_self object)
    obtain ⟨reply, held⟩ := holds.outcome_preventExtensions host shown
    exact ⟨chart, _, ⟨view, shown, reply, rfl⟩, held⟩
  | setPrototype object prototype =>
    obtain ⟨view, shown⟩ := live object (List.mem_cons_self ..)
    obtain ⟨later, ran, held⟩ := holds.setPrototype_ok shown prototype
    have ranHere : Request.perform host (.setPrototype object prototype) realm = .ok .done later :=
      Action.bind_ok ran _
    rw [outcome_ok ranHere]
    exact ⟨chart, _, ⟨view, shown, rfl, rfl⟩, held⟩
  | makeUnique object =>
    obtain ⟨view, shown⟩ := live object (List.mem_singleton_self object)
    obtain ⟨later, after, ran, held⟩ := holds.makeUnique_ok shown
    have ranHere : Request.perform host (.makeUnique object) realm = .ok .done later :=
      Action.bind_ok ran _
    rw [outcome_ok ranHere]
    exact ⟨after, views, ⟨rfl, rfl⟩, held⟩
  | makeTransitionable object =>
    obtain ⟨view, shown⟩ := live object (List.mem_singleton_self object)
    obtain ⟨later, after, ran, held⟩ := holds.makeTransitionable_ok shown
    have ranHere : Request.perform host (.makeTransitionable object) realm = .ok .done later :=
      Action.bind_ok ran _
    rw [outcome_ok ranHere]
    exact ⟨after, views, ⟨rfl, rfl⟩, held⟩

end HiddenClass.Realm
