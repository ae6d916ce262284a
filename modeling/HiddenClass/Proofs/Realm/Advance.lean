import HiddenClass.Proofs.Realm.Course

/-!
What a turn does to the cells of a realm. Unless it collects, the shapes grow, and all objects but the
one that it changes keep their slots and their shapes.
-/

namespace HiddenClass

/-- The object whose slots or shape a request may change. -/
def Request.changes : Request → Option Handle
  | .put object _ _ _ | .define object _ _ _ | .delete object _ _ | .makeUnique object => some object
  | _ => none

def Turn.changes : Turn → Option Handle
  | .make request => request.changes
  | .lookUp _ => none

namespace Realm

/-- What a realm keeps when one object may change, and no cell is freed. -/
structure Advances (realm later : Realm) (changed : Option Handle) : Prop where
  shapes : realm.shapes.Grows later.shapes
  objectRoot : later.objectRoot = realm.objectRoot
  store : ∀ handle object, realm.objects.get? handle = some object → changed ≠ some handle →
    ∃ moved, later.objects.get? handle = some moved ∧ moved.store = object.store ∧
      moved.kind = object.kind

variable {realm between later : Realm} {chart : Chart} {views : Views} {handle : Handle}
  {object moved : Object} {view : Object.View} {changed : Option Handle} {α : Type}

theorem Advances.trans (first : realm.Advances between none)
    (second : between.Advances later changed) : realm.Advances later changed where
  shapes := first.shapes.trans second.shapes
  objectRoot := second.objectRoot.trans first.objectRoot
  store := fun handle object found apart => by
    obtain ⟨inner, foundBetween, store, kind⟩ :=
      first.store handle object found nofun
    obtain ⟨moved, foundLater, storeLater, kindLater⟩ :=
      second.store handle inner foundBetween apart
    exact ⟨moved, foundLater, storeLater.trans store, kindLater.trans kind⟩

theorem Advances.weaken (advances : realm.Advances later none) (changed : Option Handle) :
    realm.Advances later changed where
  shapes := advances.shapes
  objectRoot := advances.objectRoot
  store := fun handle object found _ =>
    advances.store handle object found nofun

theorem advances_of_rest (grows : realm.shapes.Grows later.shapes) (same : later.rest = realm.rest) :
    realm.Advances later none where
  shapes := grows
  objectRoot := objectRoot_of_rest same
  store := fun handle object found _ => ⟨object, by rw [objects_of_rest same]; exact found, rfl, rfl⟩

/-- One object is replaced. -/
theorem advances_set {shapes : Shapes} (found : realm.objects.get? handle = some object)
    (moved : Object) (grows : realm.shapes.Grows shapes) :
    realm.Advances { realm with objects := realm.objects.set handle moved, shapes } (some handle) where
  shapes := grows
  objectRoot := rfl
  store := fun other neighbour present apart => by
    refine ⟨neighbour, ?_, rfl, rfl⟩
    have different : other ≠ handle := fun same => apart (congrArg some same.symm)
    rw [Arena.get?_set_live (Arena.contains_of_get? found), if_neg different]
    exact present

/-- One object is replaced by one with its slots and its shape. -/
theorem advances_replace (found : realm.objects.get? handle = some object)
    (store : moved.store = object.store) (kind : moved.kind = object.kind) :
    realm.Advances { realm with objects := realm.objects.set handle moved } none where
  shapes := .refl realm.shapes
  objectRoot := rfl
  store := fun other neighbour present _ => by
    have cells := Arena.get?_set_live (Arena.contains_of_get? found) moved other
    by_cases same : other = handle
    · rw [same, found] at present
      cases present
      exact ⟨moved, cells.trans (if_pos same), store, kind⟩
    · exact ⟨neighbour, (cells.trans (if_neg same)).trans present, rfl, rfl⟩

/-- One object is added. -/
theorem advances_alloc (sound : realm.objects.Sound) (object : Object) :
    realm.Advances { realm with objects := (realm.objects.alloc object).2 } none where
  shapes := .refl realm.shapes
  objectRoot := rfl
  store := fun other neighbour present _ => by
    refine ⟨neighbour, ?_, rfl, rfl⟩
    have different : other ≠ (realm.objects.alloc object).1 := by
      intro same
      rw [same, Arena.get?_alloc_fresh sound] at present
      cases present
    rw [Arena.get?_alloc sound, if_neg different]
    exact present

/-! ### Looking up -/

namespace Holds

theorem advances_onObject (holds : realm.Holds chart views)
    (found : realm.objects.get? handle = some object) {action : Object.Action α}
    {answer : Except Fault α} (concludes : Object.Concludes action object chart answer view) :
    realm.Advances ((onObject handle action).final realm) (some handle) := by
  obtain ⟨moved, after, ran, _, moves⟩ := concludes
  have final : (onObject handle action).final realm =
      { realm with objects := realm.objects.set handle moved, shapes := after.shapes } := by
    unfold Action.final
    rw [holds.onObject_eq found ran]
    cases answer <;> rfl
  rw [final]
  exact advances_set found moved (holds.shapes ▸ moves.grows)

/-- A look at one object lets the shapes grow. -/
theorem advances_look (holds : realm.Holds chart views) (shown : views handle = some view)
    {action : Object.Action α} {answer : Except Fault α}
    (concludes : ∀ object : Object, object.Holds chart view →
      Object.Concludes action object chart answer view)
    (keeps : ∀ context, action.Keeps Object.Context.object context) :
    realm.Advances ((onObject handle action).final realm) none := by
  obtain ⟨object, found, held⟩ := holds.find shown
  exact advances_of_rest (holds.advances_onObject found (concludes object held)).shapes
    (keeps_onObject handle keeps realm)

theorem advances_getOwn (holds : realm.Holds chart views) (shown : views handle = some view)
    (key : Key) : realm.Advances ((getOwn handle key).final realm) none :=
  holds.advances_look shown (fun _ held => held.getOwn key) (Object.keeps_getOwn key)

theorem advances_search (holds : realm.Holds chart views) (valid : views.Valid)
    (live : views.Live handle) (key : Key) (bound : Nat) :
    realm.Advances ((search key bound handle).final realm) none := by
  induction bound generalizing handle realm chart with
  | zero => exact advances_of_rest (.refl realm.shapes) rfl
  | succ bound ih =>
    obtain ⟨view, shown⟩ := live
    obtain ⟨looked, after, ran, held⟩ := holds.getOwn_ok shown key
    have first := holds.advances_getOwn shown key
    rw [Action.final_ok ran] at first
    unfold search
    rw [Action.final_bind ran]
    cases own : view.getOwn key with
    | some desc => exact first
    | none =>
      obtain ⟨object, found, objectHeld⟩ := held.find shown
      simp only
      rw [Action.final_bind (fetch_ok found), objectHeld.prototype]
      cases linked : view.prototype with
      | none => exact first
      | some prototype =>
        exact first.trans (ih held (valid.prototype handle view shown prototype linked))

theorem advances_getProperty (holds : realm.Holds chart views) (valid : views.Valid)
    (live : views.Live handle) (key : Key) :
    realm.Advances ((getProperty handle key).final realm) none :=
  holds.advances_search valid live key (realm.objects.capacity + 1)

theorem advances_assignment (holds : realm.Holds chart views) (valid : views.Valid)
    (shown : views handle = some view) (key : Key) :
    realm.Advances ((assignment handle key).final realm) none := by
  obtain ⟨looked, after, ran, held⟩ := holds.getOwn_ok shown key
  have first := holds.advances_getOwn shown key
  rw [Action.final_ok ran] at first
  unfold assignment
  rw [Action.final_bind ran]
  cases own : view.getOwn key with
  | some desc =>
    simp only
    split <;> exact first
  | none =>
    obtain ⟨object, found, objectHeld⟩ := held.find shown
    simp only
    rw [Action.final_bind (fetch_ok found), objectHeld.prototype]
    cases linked : view.prototype with
    | none => exact first
    | some prototype =>
      have live := valid.prototype handle view shown prototype linked
      obtain ⟨last, reached, searched, _⟩ := held.getProperty_settled valid live key
      have second := held.advances_getProperty valid live key
      rw [Action.final_settled searched] at second
      simp only
      cases sought : views.search key (looked.objects.capacity + 1) prototype with
      | error fault =>
        rw [sought] at searched
        rw [Action.final_stopped searched]
        exact first.trans second
      | ok inherited =>
        rw [sought] at searched
        rw [Action.final_bind searched]
        cases inherited with
        | none => exact first.trans second
        | some desc =>
          simp only
          split <;> exact first.trans second

theorem advances_pursue {request : Request} (holds : realm.Holds chart views) (valid : views.Valid)
    (live : ∀ handle ∈ request.handles, views.Live handle) :
    realm.Advances (request.pursue realm).1 none := by
  cases request with
  | read object key =>
    rw [Request.pursue, Request.fst_lookUp]
    exact holds.advances_getProperty valid (live object (List.mem_singleton_self object)) key
  | put object key value raises =>
    obtain ⟨view, shown⟩ := live object (List.mem_cons_self ..)
    rw [Request.pursue, Request.fst_lookUp]
    exact holds.advances_assignment valid shown key
  | _ => exact advances_of_rest (.refl realm.shapes) rfl

/-! ### Requests -/

theorem advances_allocate (holds : realm.Holds chart views) {shape : Handle} (live : chart.Live shape)
    (kind : ObjectKind) (prototype : Option Handle) :
    realm.Advances ((allocate shape kind prototype).final realm) none := by
  obtain ⟨_, object, _, ran⟩ := holds.allocate_eq live kind prototype
  rw [Action.final_ok ran]
  exact advances_alloc holds.sound object

theorem advances_makeUnique (holds : realm.Holds chart views) (shown : views handle = some view) :
    realm.Advances ((makeUnique handle).final realm) (some handle) := by
  obtain ⟨object, found, held⟩ := holds.find shown
  obtain ⟨shape, shapeFound⟩ := Chart.live_iff.mp held.live
  have fetched := holds.onShapes_ok (Chart.fetch_ok shapeFound)
  rw [← holds.shapes] at fetched
  unfold makeUnique
  rw [Action.final_bind (fetch_ok found), Action.final_bind fetched]
  by_cases unique : shape.isUnique = true
  · rw [if_pos unique]
    exact (advances_of_rest (.refl realm.shapes) rfl).weaken (some handle)
  · obtain ⟨own, after, ran, _, _, _, grown⟩ := Chart.newUniqueFrom_ok held.live
    rw [if_neg unique, Action.final_bind (holds.onShapes_ok ran)]
    exact advances_set found _ (holds.shapes ▸ grown.grows)

theorem advances_makeTransitionable (holds : realm.Holds chart views)
    (shown : views handle = some view) :
    realm.Advances ((makeTransitionable handle).final realm) none := by
  obtain ⟨object, found, held⟩ := holds.find shown
  obtain ⟨after, ran, _, grown, _⟩ := Chart.share_ok held.live
  have shape : shapeOf handle realm = .ok object.store.shape realm :=
    Action.bind_ok (fetch_ok found) _
  unfold makeTransitionable
  rw [Action.final_bind shape, Action.final_ok (holds.onShapes_ok ran)]
  exact advances_of_rest (holds.shapes ▸ grown.grows) rfl

/-- A direct request that collects nothing keeps what a realm keeps when one object may change. -/
theorem advances {request : Request} (holds : realm.Holds chart views) (host : Host)
    (valid : views.Valid) (live : ∀ handle ∈ request.handles, views.Live handle)
    (direct : request.isDirect = true) (staying : ∀ roots, request ≠ .collect roots) :
    realm.Advances (request.outcome host realm).2 request.changes := by
  rw [Request.outcome_snd]
  cases request with
  | read object key => cases direct
  | put object key value raises => cases direct
  | collect roots => exact absurd rfl (staying roots)
  | intern text => exact ⟨.refl realm.shapes, rfl, fun _ object found _ => ⟨object, found, rfl, rfl⟩⟩
  | newObject prototype =>
    rw [Request.perform, Request.final_map]
    exact holds.advances_allocate holds.objectRoot.1.live .ordinary prototype
  | newUniqueObject prototype =>
    obtain ⟨own, after, ran, _, reached, _, grown⟩ := Chart.newUnique_ok chart
    have first : realm.Advances { realm with shapes := after.shapes } none :=
      advances_of_rest (holds.shapes ▸ grown.grows) rfl
    rw [Request.perform, Request.final_map, newUniqueObject, Action.final_bind (holds.onShapes_ok ran)]
    exact first.trans ((holds.extend grown).advances_allocate reached .ordinary prototype)
  | newArray length =>
    rw [Request.perform, Request.final_map]
    exact holds.advances_allocate holds.arrayRoot.1.live _ none
  | getOwn object key =>
    obtain ⟨view, shown⟩ := live object (List.mem_singleton_self object)
    rw [Request.perform, Request.final_map]
    exact holds.advances_getOwn shown key
  | getProperty object key =>
    rw [Request.perform, Request.final_map]
    exact holds.advances_getProperty valid (live object (List.mem_singleton_self object)) key
  | define object key desc raises =>
    obtain ⟨view, shown⟩ := live object (List.mem_cons_self ..)
    obtain ⟨cell, found, held⟩ := holds.find shown
    obtain ⟨_, _, _, concludes⟩ := held.define (valid.sound object view shown) key desc
    rw [Request.perform, Request.final_map, define, Action.final_report]
    exact holds.advances_onObject found concludes
  | delete object key raises =>
    obtain ⟨view, shown⟩ := live object (List.mem_singleton_self object)
    obtain ⟨cell, found, held⟩ := holds.find shown
    rw [Request.perform, Request.final_map, delete, Action.final_report]
    exact holds.advances_onObject found (held.delete key)
  | keys object filter =>
    obtain ⟨view, shown⟩ := live object (List.mem_singleton_self object)
    obtain ⟨cell, found, held⟩ := holds.find shown
    obtain ⟨_, _, concludes⟩ := held.keys filter
    rw [Request.perform, Request.final_map]
    exact advances_of_rest (holds.advances_onObject found concludes).shapes
      (keeps_keys object filter realm)
  | preventExtensions object =>
    obtain ⟨cell, found⟩ := Arena.contains_iff.mp
      (holds.live_iff.mp (live object (List.mem_singleton_self object)))
    rw [Request.perform, Request.final_map, preventExtensions, Action.final_bind (fetch_ok found)]
    exact advances_replace found rfl rfl
  | setPrototype object prototype =>
    obtain ⟨cell, found⟩ := Arena.contains_iff.mp
      (holds.live_iff.mp (live object (List.mem_cons_self ..)))
    rw [Request.perform, Request.final_map, setPrototype, Action.final_bind (fetch_ok found)]
    exact advances_replace found rfl rfl
  | makeUnique object =>
    obtain ⟨view, shown⟩ := live object (List.mem_singleton_self object)
    rw [Request.perform, Request.final_map]
    exact holds.advances_makeUnique shown
  | makeTransitionable object =>
    obtain ⟨view, shown⟩ := live object (List.mem_singleton_self object)
    rw [Request.perform, Request.final_map]
    exact holds.advances_makeTransitionable shown

/-- What a turn keeps that collects nothing. -/
theorem advances_turn {turn : Turn} (holds : realm.Holds chart views) (host : Host)
    (valid : views.Valid) (lawful : turn.isLawful realm = true)
    (staying : ∀ roots, turn.request ≠ .collect roots) :
    realm.Advances (turn.after host realm) turn.changes := by
  have live : ∀ handle ∈ turn.request.handles, views.Live handle := by
    intro handle member
    have named := Turn.namesLive_of_lawful lawful
    exact holds.live_iff.mpr (Request.live_of_namesLive named staying handle member)
  have first := holds.advances_pursue valid live
  cases turn with
  | lookUp request => exact first
  | make request =>
    rcases Turn.after_of_lawful host lawful with looked | ⟨next, asked, reached⟩
    · rw [looked]
      exact first.weaken _
    · rw [reached]
      obtain ⟨after, held⟩ := holds.pursue valid live
      have nextLive : ∀ handle ∈ next.handles, views.Live handle :=
        fun handle member => live handle (Request.handles_of_ask asked handle member)
      rcases Request.of_ask asked with ⟨direct, rfl⟩ | ⟨_, _, _, _, _, same, rfl, _⟩
      · exact first.trans (held.advances host valid nextLive direct staying)
      · have second := held.advances host valid nextLive rfl fun _ => Request.noConfusion
        cases same
        exact first.trans second

end Holds

end Realm

end HiddenClass
