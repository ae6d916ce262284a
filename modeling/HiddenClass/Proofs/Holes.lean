import HiddenClass.Proofs.Dwindling
import HiddenClass.Proofs.Inheritance

/-!
Holes mark the places that hold no value: gaps in a vector, what is left of a deleted element, the free
slots of an object. No look-up ever answers one that was not handed in.
-/

namespace HiddenClass

theorem Value.solid_ofWord (n : Nat) : (Value.ofWord n).Solid := by
  unfold ofWord Solid
  split <;> exact Value.noConfusion

namespace Request

/-- The native function that a request comes to, if there is one, returns no hole. -/
def ReturnsSolid (host : Host) (realm : Realm) (request : Request) : Prop :=
  ∀ looked function this arguments value after,
    request.pursue realm = (looked, .call function this arguments) →
    host function this arguments looked = .ok value after → value.Solid

end Request

namespace Realm

variable {host : Host} {realm later : Realm} {chart : Chart} {views : Views} {object : Handle}
  {key : Key} {desc : Descriptor} {value : Value} {turns : List Turn}

namespace Views

/-- What is found along a prototype chain is an own property of one of its objects. -/
theorem own_of_search {bound : Nat} (found : views.search key bound object = .ok (some desc)) :
    ∃ holder view, views holder = some view ∧ view.getOwn key = some desc := by
  induction bound generalizing object with
  | zero => cases found
  | succ bound ih =>
    unfold search at found
    cases shown : views object with
    | none =>
      rw [shown] at found
      cases found
    | some view =>
      simp only [shown] at found
      cases own : view.getOwn key with
      | some desc =>
        simp only [own] at found
        cases found
        exact ⟨object, view, shown, own⟩
      | none =>
        simp only [own] at found
        split at found
        · exact ih found
        · cases found

theorem Solid.getOwn (solid : views.Solid) {view : Object.View} (shown : views object = some view)
    (own : view.getOwn key = some desc) : desc.All Value.Solid :=
  (solid object view shown).getOwn Value.solid_undefined Value.solid_ofWord own

end Views

theorem getOwn_of_gone (gone : realm.objects.get? object = none) (key : Key) :
    getOwn object key realm = .error (.stale object) realm :=
  onObject_of_gone gone _

theorem getProperty_of_gone (gone : realm.objects.get? object = none) (key : Key) :
    getProperty object key realm = .error (.stale object) realm := by
  unfold getProperty
  rw [Action.bind_ok (Action.get_apply _), search, Action.bind_apply, getOwn_of_gone gone]

namespace Holds

variable (holds : realm.Holds chart views) (solid : views.Solid)
include holds solid

theorem solid_of_getOwn (answered : getOwn object key realm = .ok (some desc) later) :
    desc.All Value.Solid := by
  cases shown : views object with
  | none =>
    rw [getOwn_of_gone (holds.get?_of_unseen shown)] at answered
    cases answered
  | some view =>
    obtain ⟨_, _, ran, _⟩ := holds.getOwn_ok shown key
    rw [ran] at answered
    injection answered with own _
    exact solid.getOwn shown own

theorem solid_of_getProperty (valid : views.Valid)
    (answered : getProperty object key realm = .ok (some desc) later) : desc.All Value.Solid := by
  cases shown : views object with
  | none =>
    rw [getProperty_of_gone (holds.get?_of_unseen shown)] at answered
    cases answered
  | some view =>
    obtain ⟨_, _, ran, _⟩ := holds.getProperty_settled valid ⟨view, shown⟩ key
    rw [ran] at answered
    cases searched : views.search key (realm.objects.capacity + 1) object with
    | error fault =>
      rw [searched] at answered
      cases answered
    | ok found =>
      rw [searched] at answered
      cases answered
      obtain ⟨holder, nearest, shownNearest, own⟩ := Views.own_of_search searched
      exact solid.getOwn shownNearest own

/-- A value that is read is that of a property, or what a native function returns. -/
theorem solid_of_read (valid : views.Valid)
    (returns : (Request.read object key).ReturnsSolid host realm)
    (answered : read host object key realm = .ok value later) : value.Solid := by
  unfold read at answered
  rw [Action.bind_apply] at answered
  cases ran : getProperty object key realm with
  | error fault looked =>
    rw [ran] at answered
    cases answered
  | ok found looked =>
    rw [ran] at answered
    cases found with
    | none =>
      cases answered
      exact Value.solid_undefined
    | some desc =>
      have carried := holds.solid_of_getProperty solid valid ran
      simp only at answered
      split at answered
      -- what a getter returns is what the native function of the request returns
      · rename_i accessor
        have pursued : (Request.read object key).pursue realm =
            (looked, Pursuit.ofAccessor desc.getter (.object object) []) := by
          show Request.lookUp (getProperty object key) (.ofRead object) realm = _
          unfold Request.lookUp Pursuit.ofRead
          rw [ran]
          simp only [if_pos accessor]
        unfold call at answered
        cases getter : desc.getter with
        | native function =>
          rw [getter] at answered pursued
          exact returns looked function _ _ value later pursued answered
        | undefined =>
          rw [getter] at answered
          cases answered
          exact Value.solid_undefined
        | _ =>
          rw [getter] at answered
          cases answered
      · cases answered
        exact carried.value

end Holds

theorem answered_map {α : Type} {action : Action α} {request : Request} {answer : Answer}
    {wrap : α → Answer} (performs : request.perform host = do return wrap (← action))
    (answered : (request.outcome host realm).1 = .answered answer) :
    ∃ result later, action realm = .ok result later ∧ wrap result = answer := by
  rw [Request.outcome, performs, Action.bind_apply] at answered
  cases ran : action realm with
  | error fault later =>
    rw [ran] at answered
    cases answered
  | ok result later =>
    rw [ran] at answered
    cases answered
    exact ⟨result, later, rfl, rfl⟩

/-- As long as live handles are passed and no hole is handed in, none is seen at any moment of a course,
in whatever object and for whatever key: not in an own property, not in one that is found, and not in
what is read, unless a native function returns it. Only a search along prototypes that lead back comes
to no answer. -/
theorem holes_unseen {config : Config} (lawful : (ofConfig config).lawful host turns = true)
    (solid : ∀ turn ∈ turns, turn.request.Solid) (object : Handle) (key : Key) :
    let realm := (ofConfig config).course host turns
    (realm.objects.contains object = true →
      (∃ own, ((Request.getOwn object key).outcome host realm).1 = .answered (.descriptor own)) ∧
      ((∃ found,
          ((Request.getProperty object key).outcome host realm).1 = .answered (.descriptor found)) ∨
        ((Request.getProperty object key).outcome host realm).1 = .stopped .endless ∧
          ¬realm.Acyclic)) ∧
    (∀ desc, ((Request.getOwn object key).outcome host realm).1 =
      .answered (.descriptor (some desc)) → desc.All Value.Solid) ∧
    (∀ desc, ((Request.getProperty object key).outcome host realm).1 =
      .answered (.descriptor (some desc)) → desc.All Value.Solid) ∧
    ((Request.read object key).ReturnsSolid host realm → ∀ value,
      ((Request.read object key).outcome host realm).1 = .answered (.value value) → value.Solid) := by
  intro realm
  obtain ⟨start, first⟩ := holds_ofConfig config
  obtain ⟨chart, views, holds, valid, whole⟩ :=
    first.solid_course valid_empty Views.solid_empty lawful solid
  refine ⟨fun live => ?_, fun desc answered => ?_, fun desc answered => ?_,
    fun returns value answered => ?_⟩
  · obtain ⟨view, shown⟩ := holds.live_iff.mpr live
    obtain ⟨_, own, _⟩ := holds.outcome_getOwn host shown key
    exact ⟨⟨_, own⟩, holds.getProperty_ends valid ⟨view, shown⟩ host key⟩
  · obtain ⟨own, later, ran, same⟩ := answered_map rfl answered
    cases same
    exact holds.solid_of_getOwn whole ran
  · obtain ⟨found, later, ran, same⟩ := answered_map rfl answered
    cases same
    exact holds.solid_of_getProperty whole valid ran
  · obtain ⟨result, later, ran, same⟩ := answered_map rfl answered
    cases same
    exact holds.solid_of_read whole valid returns ran

/-- An array whose elements in vector and map are deleted again. A getter takes the slot of a name that
is deleted too, and an object inherits from the array. -/
def hollowing : List Turn :=
  let array : Handle := ⟨0, 0⟩
  [.make (.intern "x"), .make (.newArray 3), .make (.put array (.index 0) (.int 1) true),
    .make (.put array (.index 9) (.int 2) true), .make (.delete array (.index 0) true),
    .make (.delete array (.index 9) true), .make (.put array (.named 1) .null true),
    .make (.delete array (.named 1) true),
    .make (.define array (.index 2)
      (.accessor (some (.native ⟨"seven"⟩)) none { configurable := true }) true),
    .make (.newObject (some array))]

/-- All native functions return seven. -/
def sevens : Host := fun _ _ _ => pure (.int 7)

theorem holes_unseen_hollow :
    let realm := (ofConfig { maxVectorSize := 4 }).course sevens hollowing
    (ofConfig { maxVectorSize := 4 }).lawful sevens hollowing = true ∧
      (∀ turn ∈ hollowing, turn.request.Solid) ∧
      (Request.read ⟨1, 0⟩ (.index 2)).ReturnsSolid sevens realm ∧
      ((Request.read ⟨1, 0⟩ (.index 2)).outcome sevens realm).1 = .answered (.value (.int 7)) ∧
      Value.Solid (.int 7) ∧
      ((Request.getProperty ⟨1, 0⟩ (.index 2)).outcome sevens realm).1 = .answered (.descriptor (some
        (.accessor (some (.native ⟨"seven"⟩)) (some .undefined) { configurable := true }))) ∧
      (Descriptor.accessor (some (.native ⟨"seven"⟩)) (some .undefined)
        { configurable := true }).All Value.Solid := by
  intro realm
  have lawful : (ofConfig { maxVectorSize := 4 }).lawful sevens hollowing = true := by decide +kernel
  have solid : ∀ turn ∈ hollowing, turn.request.Solid := by decide
  have returns : (Request.read ⟨1, 0⟩ (.index 2)).ReturnsSolid sevens realm := by
    intro looked function this arguments value after _ returned
    cases returned
    exact Value.noConfusion
  have value : ((Request.read ⟨1, 0⟩ (.index 2)).outcome sevens realm).1 =
      .answered (.value (.int 7)) := by decide +kernel
  have found : ((Request.getProperty ⟨1, 0⟩ (.index 2)).outcome sevens realm).1 =
      .answered (.descriptor (some (.accessor (some (.native ⟨"seven"⟩)) (some .undefined)
        { configurable := true }))) := by decide +kernel
  obtain ⟨_, _, inherited, read⟩ := holes_unseen lawful solid ⟨1, 0⟩ (.index 2)
  exact ⟨lawful, solid, returns, value, read returns _ value, found, inherited _ found⟩

/-- Where elements and names were deleted there is nothing. -/
example :
    let realm := (ofConfig { maxVectorSize := 4 }).course sevens hollowing
    realm.sight.own ⟨0, 0⟩ (.index 0) = some none ∧ realm.sight.own ⟨0, 0⟩ (.index 9) = some none ∧
      realm.sight.own ⟨0, 0⟩ (.named 1) = some none := by
  decide +kernel

end Realm

end HiddenClass
