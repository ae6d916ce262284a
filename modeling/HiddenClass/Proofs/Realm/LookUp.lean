import HiddenClass.Proofs.Arena
import HiddenClass.Proofs.Realm.Run

/-!
Looking a property up changes nothing but the shapes, where it may build a table. The search along a
prototype chain and the decision about an assignment are made of such look-ups.
-/

namespace HiddenClass

variable {α : Type}

namespace Store

variable {context : Context}

/-- What is done to the shapes does not touch the store. -/
theorem keeps_onShapes (action : Shapes.Action α) (context : Context) :
    (onShapes action).Keeps Context.store context :=
  have nothing : action.Keeps (fun _ => ()) context.shapes := rfl
  nothing.focus fun _ _ => rfl

theorem keeps_offset? (key : Key) (context : Context) : (offset? key).Keeps Context.store context :=
  keeps_onShapes _ context

theorem keeps_find? (key : Key) (context : Context) : (find? key).Keeps Context.store context := by
  apply (keeps_offset? key context).bind
  intro answer after _
  cases answer <;> exact rfl

theorem keeps_slot? (key : Key) (context : Context) : (slot? key).Keeps Context.store context :=
  (keeps_find? key context).bind fun _ _ _ => rfl

theorem keeps_keys (filter : KeyFilter) (context : Context) :
    (keys filter).Keeps Context.store context :=
  (keeps_onShapes _ context).bind fun _ _ _ => rfl

end Store

namespace Elements

theorem keeps_getOwn (index : Nat) (context : Context) :
    (getOwn index).Keeps (fun context => (context.elements, context.store)) context := by
  apply Action.keeps_get
  cases context.elements.lookup index with
  | present value => exact rfl
  | absent => exact rfl
  | fallback =>
    refine Action.Keeps.bind ?_ fun _ _ _ => rfl
    exact Action.Keeps.focus (Store.keeps_slot? _ _) fun rest same => congrArg _ same

end Elements

namespace Object

theorem keeps_onStore {action : Store.Action α} {context : Context}
    (keeps : action.Keeps Store.Context.store ⟨context.object.store, context.shapes⟩) :
    (onStore action).Keeps Context.object context := by
  unfold onStore
  refine Action.Keeps.focus keeps fun rest same => ?_
  change { context.object with store := rest.store } = context.object
  rw [same]

theorem keeps_getOwn (key : Key) (context : Context) :
    (getOwn key).Keeps Context.object context := by
  apply Action.keeps_get
  cases place : context.object.place key with
  | element elements index =>
    refine (Elements.keeps_getOwn index _).focus fun rest same => ?_
    have kind : context.object.kind = .array elements := by
      unfold Object.place at place
      split at place <;> grind
    change { context.object with store := rest.store, kind := .array rest.elements } = context.object
    obtain ⟨sameElements, sameStore⟩ := Prod.mk.inj same
    rw [sameElements, sameStore, ← kind]
  | length elements => exact rfl
  | store => exact (keeps_onStore (Store.keeps_slot? key _)).bind fun _ _ _ => rfl

theorem keeps_keys (filter : KeyFilter) (context : Context) :
    (keys filter).Keeps Context.object context := by
  refine (keeps_onStore (Store.keeps_keys filter _)).bind fun listed after _ => Action.keeps_get ?_
  cases after.object.elements? <;> exact rfl

end Object

namespace Realm

/-- Everything but the shapes. -/
def rest (realm : Realm) : Realm := { realm with shapes := {} }

theorem objects_of_rest {realm after : Realm} (same : after.rest = realm.rest) :
    after.objects = realm.objects :=
  show after.rest.objects = realm.rest.objects from congrArg Realm.objects same

theorem objectRoot_of_rest {realm after : Realm} (same : after.rest = realm.rest) :
    after.objectRoot = realm.objectRoot :=
  show after.rest.objectRoot = realm.rest.objectRoot from congrArg Realm.objectRoot same

variable {realm : Realm}

theorem fetch_eq_ok {handle : Handle} {object : Object} {after : Realm}
    (fetched : fetch handle realm = .ok object after) :
    realm.objects.get? handle = some object ∧ after = realm := by
  unfold fetch at fetched
  rw [Action.bind_ok (Action.get_apply _)] at fetched
  cases found : realm.objects.get? handle with
  | none =>
    rw [found] at fetched
    cases fetched
  | some cell =>
    rw [found] at fetched
    cases fetched
    exact ⟨rfl, rfl⟩

theorem keeps_fetch (handle : Handle) (realm : Realm) : (fetch handle).Keeps rest realm := by
  apply Action.keeps_get
  cases realm.objects.get? handle <;> exact rfl

theorem keeps_onObject (handle : Handle) {action : Object.Action α}
    (keeps : ∀ context, action.Keeps Object.Context.object context) (realm : Realm) :
    (onObject handle action).Keeps rest realm := by
  apply (keeps_fetch handle realm).bind
  intro object after fetched
  obtain ⟨found, rfl⟩ := fetch_eq_ok fetched
  refine Action.Keeps.focus (keeps _) fun part same => ?_
  change { after with objects := after.objects.set handle part.object, shapes := {} } = after.rest
  rw [same, Arena.set_self found]
  rfl

theorem keeps_getOwn (handle : Handle) (key : Key) (realm : Realm) :
    (getOwn handle key).Keeps rest realm :=
  keeps_onObject handle (Object.keeps_getOwn key) realm

theorem keeps_keys (handle : Handle) (filter : KeyFilter) (realm : Realm) :
    (keys handle filter).Keeps rest realm :=
  keeps_onObject handle (Object.keeps_keys filter) realm

theorem keeps_search (key : Key) (bound : Nat) (handle : Handle) (realm : Realm) :
    (search key bound handle).Keeps rest realm := by
  induction bound generalizing handle realm with
  | zero => exact rfl
  | succ bound ih =>
    apply (keeps_getOwn handle key realm).bind
    intro own looked _
    cases own with
    | some desc => exact rfl
    | none =>
      apply (keeps_fetch handle looked).bind
      intro object fetched _
      cases object.prototype with
      | none => exact rfl
      | some prototype => exact ih prototype fetched

theorem keeps_getProperty (handle : Handle) (key : Key) (realm : Realm) :
    (getProperty handle key).Keeps rest realm :=
  Action.keeps_get (keeps_search key _ handle realm)

theorem keeps_assignment (handle : Handle) (key : Key) (realm : Realm) :
    (assignment handle key).Keeps rest realm := by
  apply (keeps_getOwn handle key realm).bind
  intro own looked _
  cases own with
  | some desc =>
    simp only
    split <;> exact rfl
  | none =>
    apply (keeps_fetch handle looked).bind
    intro object fetched _
    cases object.prototype with
    | none => exact rfl
    | some prototype =>
      apply (keeps_getProperty prototype key fetched).bind
      intro inherited searched _
      cases inherited with
      | none => exact rfl
      | some desc =>
        simp only
        split <;> exact rfl

end Realm

namespace Request

/-- Whoever is asked for an own property and answers is live. -/
theorem live_of_answered {host : Host} {realm : Realm} {object : Handle} {key : Key} {answer : Answer}
    (answered : ((Request.getOwn object key).outcome host realm).1 = .answered answer) :
    realm.objects.contains object = true := by
  by_contra gone
  have absent := Arena.get?_eq_none_iff.mpr gone
  have stopped : Realm.getOwn object key realm = .error (.stale object) realm :=
    Realm.onObject_of_gone absent _
  have ran : (Request.getOwn object key).perform host realm = .error (.stale object) realm := by
    show (Realm.getOwn object key >>= fun own => pure (Answer.descriptor own)) realm = _
    rw [Action.bind_apply, stopped]
  rw [outcome, ran] at answered
  cases answered

/-- Looking up what a request comes to changes the shapes alone. -/
theorem rest_pursue (request : Request) (realm : Realm) :
    (request.pursue realm).1.rest = realm.rest := by
  cases request with
  | read object key =>
    rw [pursue, fst_lookUp]
    exact Realm.keeps_getProperty object key realm
  | put object key value raises =>
    rw [pursue, fst_lookUp]
    exact Realm.keeps_assignment object key realm
  | _ => rfl

end Request

end HiddenClass
