import HiddenClass.Proofs.Action
import HiddenClass.Proofs.Checked.Operations

/-!
With nothing checked, the operations do what the plain ones do, except that a refusal may be raised
where it occurs. What goes on only after an acceptance does not go on after a refusal either way.
-/

namespace HiddenClass

namespace Action

variable {σ τ α : Type} {raises : Bool} {state after : σ} {verdict : Verdict}

theorem require_ok {crash : Option Fault} {condition : Prop} [Decidable condition]
    (met : condition) (state : σ) : require crash condition state = .ok () state := by
  cases crash with
  | none => rfl
  | some fault =>
    rw [require, if_pos met]
    rfl

theorem require_off {condition : Prop} [Decidable condition] (next : Unit → Action σ α) :
    (require Guards.off.crash condition >>= next) = next () := rfl

/-- Refuses as soon as the verdict is there. -/
def voice (raises : Bool) (action : Action σ Verdict) : Action σ Verdict := do
  match ← action with
  | .accepted => return .accepted
  | .rejected reason => refuse raises reason

theorem voice_accepted : voice raises (pure .accepted : Action σ Verdict) = pure .accepted := rfl

theorem voice_rejected (reason : Rejection) :
    voice raises (pure (.rejected reason) : Action σ Verdict) = refuse raises reason := rfl

theorem voice_throw (fault : Fault) :
    voice raises (throw fault : Action σ Verdict) = throw fault := rfl

theorem voice_bind (action : Action σ α) (next : α → Action σ Verdict) :
    voice raises (action >>= next) = action >>= fun answer => voice raises (next answer) :=
  bind_assoc action next _

theorem voice_ite (condition : Prop) [Decidable condition] (action other : Action σ Verdict) :
    voice raises (if condition then action else other) =
      if condition then voice raises action else voice raises other :=
  apply_ite (voice raises) condition action other

theorem voice_ok {action : Action σ Verdict} (ran : action state = .ok verdict after) :
    voice raises action state = voice raises (pure verdict) after := by
  unfold voice
  rw [bind_ok ran]
  rfl

theorem voice_error {action : Action σ Verdict} {fault : Fault}
    (ran : action state = .error fault after) : voice raises action state = .error fault after := by
  unfold voice
  rw [bind_apply, ran]

/-- A quiet refusal is the verdict itself. -/
theorem voice_false (action : Action σ Verdict) : voice false action = action := by
  funext state
  cases ran : action state with
  | error fault after => rw [voice_error ran]
  | ok verdict after =>
    rw [voice_ok ran]
    cases verdict <;> rfl

/-- What is answered at last is the verdict. -/
theorem ok_of_voice {action : Action σ Verdict}
    (ran : voice raises action state = .ok verdict after) : action state = .ok verdict after := by
  cases began : action state with
  | error fault reached =>
    rw [voice_error began] at ran
    cases ran
  | ok judged reached =>
    rw [voice_ok began] at ran
    cases judged with
    | accepted =>
      cases ran
      rfl
    | rejected reason =>
      rw [voice_rejected] at ran
      cases raises <;> cases ran
      rfl

theorem voice_focus (view : σ → τ) (update : σ → τ → σ) (action : Action τ Verdict) :
    voice raises (focus view update action) = focus view update (voice raises action) := by
  funext state
  cases ran : action (view state) with
  | ok verdict part =>
    have focused : focus view update action state = .ok verdict (update state part) := focus_ok ran
    rw [voice_ok focused, focus, voice_ok ran]
    cases verdict <;> cases raises <;> rfl
  | error fault part =>
    have focused : focus view update action state = .error fault (update state part) := by
      rw [focus, ran]
    rw [voice_error focused, focus, voice_error ran]

/-- What goes on only after an acceptance goes on only after a voiced one. -/
theorem voice_follow (action : Action σ Verdict) (next : Verdict → Action σ Verdict)
    (stop : ∀ reason, next (.rejected reason) = pure (.rejected reason)) :
    voice raises (action >>= next) =
      voice raises action >>= fun verdict =>
        match verdict with
        | .accepted => voice raises (next .accepted)
        | .rejected reason => pure (.rejected reason) := by
  funext state
  rw [voice_bind, bind_apply, bind_apply]
  cases ran : action state with
  | error fault after => rw [voice_error ran]
  | ok verdict after =>
    rw [voice_ok ran]
    cases verdict with
    | accepted => rfl
    | rejected reason =>
      simp only [stop, voice_rejected]
      cases raises <;> rfl

/-- A refusal on the spot is reported as one at the end. -/
theorem report_eq_voice (action : Action σ Verdict) :
    report raises action = do return (← voice raises action).isAccepted := by
  funext state
  rw [bind_apply]
  cases ran : action state with
  | error fault after => rw [report_error ran, voice_error ran]
  | ok verdict after =>
    rw [report_ok ran, voice_ok ran]
    cases verdict <;> cases raises <;> rfl

end Action

open HiddenClass.Action (voice)

/-! ### Shapes -/

namespace Shapes

theorem gatherWith_off (arena : Arena Shape) (bound : Nat) (handle : Handle) :
    gatherWith .off arena bound handle = gather arena bound handle := by
  induction bound generalizing handle with
  | zero => rfl
  | succ bound ih =>
    unfold gatherWith
    simp only [ih]
    rfl

theorem fullTableWith_off (handle : Handle) : fullTableWith .off handle = fullTable handle := by
  unfold fullTableWith
  simp only [gatherWith_off]
  rfl

theorem materializeWith_off (handle : Handle) :
    materializeWith .off handle = materialize handle := by
  unfold materializeWith
  simp only [fullTableWith_off]
  rfl

theorem newUniqueFromWith_off (source : Handle) :
    newUniqueFromWith .off source = newUniqueFrom source := by
  unfold newUniqueFromWith newUniqueFrom
  rw [fullTableWith_off]
  rfl

theorem lookupWith_off (handle : Handle) (key : Key) :
    lookupWith .off handle key = lookup handle key := by
  unfold lookupWith
  simp only [materializeWith_off]
  rfl

theorem addWith_off (handle : Handle) (key : Key) : addWith .off handle key = add handle key := by
  have extended : extendUniqueWith .off handle key = extendUnique handle key := by
    unfold extendUniqueWith extendUnique
    rw [materializeWith_off]
    rfl
  unfold addWith add
  simp only [extended]
  rfl

theorem removeWith_off (handle : Handle) (key : Key) :
    removeWith .off handle key = remove handle key := by
  unfold removeWith remove
  rw [materializeWith_off]
  rfl

theorem namesWith_off (handle : Handle) : namesWith .off handle = names handle := by
  unfold namesWith names
  rw [materializeWith_off]

end Shapes

/-! ### Stored properties -/

theorem Slot.validateWith_eq {σ : Type} (raises : Bool) (slot : Slot) (desc : Descriptor) :
    slot.validateWith raises desc = (voice raises (pure (slot.validate desc)) : Action σ Verdict) := by
  unfold validateWith validate
  simp only [apply_ite (pure (f := Action σ)), Action.voice_ite, Action.voice_accepted,
    Action.voice_rejected]

namespace Store

variable {raises : Bool}

theorem offsetWith?_off (key : Key) : offsetWith? .off key = offset? key := by
  unfold offsetWith? offset?
  simp only [Shapes.lookupWith_off]

theorem findWith?_off (key : Key) : findWith? .off key = find? key := by
  unfold findWith?
  rw [offsetWith?_off]
  rfl

theorem slotWith?_off (key : Key) : slotWith? .off key = slot? key := by
  unfold slotWith? slot?
  rw [findWith?_off]

theorem insertWith_off (key : Key) (slot : Slot) : insertWith .off key slot = insert key slot := by
  unfold insertWith insert
  simp only [Shapes.addWith_off]
  rfl

theorem keysWith_off (filter : KeyFilter) : keysWith .off filter = keys filter := by
  unfold keysWith keys
  simp only [Shapes.namesWith_off]

theorem defineWith_off (key : Key) (desc : Descriptor) (extensible : Bool) :
    defineWith .off raises key desc extensible = voice raises (define key desc extensible) := by
  unfold defineWith define
  rw [Action.voice_bind, findWith?_off]
  congr 1
  funext found
  match found with
  | none =>
    simp only [Action.voice_ite, Action.voice_bind, Action.voice_accepted, Action.voice_rejected,
      insertWith_off]
  | some (offset, slot) =>
    simp only [Slot.validateWith_eq]
    cases slot.validate desc with
    | accepted => rfl
    | rejected reason => cases raises <;> rfl

theorem deleteWith_off (key : Key) : deleteWith .off raises key = voice raises (delete key) := by
  unfold deleteWith delete
  rw [Action.voice_bind, offsetWith?_off]
  congr 1
  funext found
  cases found with
  | none => rfl
  | some offset =>
    simp only [Action.voice_bind, Action.voice_ite, Action.voice_rejected, Action.voice_accepted,
      Shapes.removeWith_off]
    rfl

end Store

/-! ### Elements -/

namespace Elements

variable {raises : Bool}

theorem voice_onStore (action : Store.Action Verdict) :
    voice raises (onStore action) = onStore (voice raises action) :=
  Action.voice_focus ..

/-- The vector is long enough once it is lengthened. -/
theorem storeWith_eq (guards : Guards) (index : Nat) (value : Value) :
    storeWith guards index value = update fun elements => elements.store index value := by
  funext context
  have long : index < (reach index context.elements).vector.size := by
    simp only [reach, Array.size_append, Array.size_replicate]
    omega
  have changed : ∀ change : Elements → Elements,
      update change context = .ok () { context with elements := change context.elements } :=
    fun _ => rfl
  unfold storeWith
  rw [Action.bind_ok (Action.get_apply _), changed]
  unfold Elements.store
  by_cases small : index < context.elements.maxVectorSize
  · rw [if_pos small, if_pos small, Action.bind_ok (changed _),
      Action.bind_ok (Action.get_apply _), Action.bind_ok (Action.require_ok long _)]
    rfl
  · rw [if_neg small, if_neg small]
    rfl

theorem storedSlotWith_off (index : Nat) : storedSlotWith .off index = storedSlot index := by
  unfold storedSlotWith storedSlot
  rw [Store.slotWith?_off]

theorem getOwnWith_off (index : Nat) : getOwnWith .off index = getOwn index := by
  unfold getOwnWith
  simp only [storedSlotWith_off]
  rfl

theorem plainValueWith_off (index : Nat) (desc : Descriptor) :
    plainValueWith .off index desc = plainValue index desc := by
  unfold plainValueWith
  simp only [storedSlotWith_off]
  rfl

theorem moveToStoreWith_off (index : Nat) : moveToStoreWith .off index = moveToStore index := by
  unfold moveToStoreWith
  simp only [Store.defineWith_off, Action.voice_false]
  rfl

theorem defineStoredWith_off (index : Nat) (desc : Descriptor) (extensible : Bool) :
    defineStoredWith .off raises index desc extensible =
      voice raises (defineStored index desc extensible) := by
  unfold defineStoredWith defineStored
  rw [Action.voice_bind, moveToStoreWith_off]
  congr 1
  funext _
  rw [Action.voice_follow, voice_onStore, ← Store.defineWith_off]
  · rfl
  · exact fun reason => rfl

theorem defineElementWith_off (index : Nat) (desc : Descriptor) (extensible : Bool) :
    defineElementWith .off raises index desc extensible =
      voice raises (defineElement index desc extensible) := by
  unfold defineElementWith defineElement
  rw [Action.voice_bind, plainValueWith_off]
  congr 1
  funext found
  cases found with
  | none => exact defineStoredWith_off ..
  | some value =>
    simp only [Action.voice_bind, Action.voice_ite, Action.voice_rejected, Action.voice_accepted,
      storeWith_eq]

theorem defineWith_off (index : Nat) (desc : Descriptor) (extensible : Bool) :
    defineWith .off raises index desc extensible = voice raises (define index desc extensible) := by
  unfold defineWith define
  rw [Action.voice_bind]
  congr 1
  funext context
  simp only [Action.voice_ite, Action.voice_rejected]
  rw [Action.voice_follow, ← defineElementWith_off]
  · simp only [Action.voice_ite, Action.voice_bind, Action.voice_accepted]
    rfl
  · exact fun reason => rfl

theorem deleteWith_off (index : Nat) :
    deleteWith .off raises index = voice raises (delete index) := by
  unfold deleteWith delete
  simp only [Action.voice_bind, Action.voice_ite, Action.voice_accepted, voice_onStore,
    Store.deleteWith_off]

theorem applyLengthWith_eq (desc : Descriptor) :
    applyLengthWith raises desc = voice raises (applyLength desc) := by
  unfold applyLengthWith applyLength
  rw [Action.voice_bind]
  congr 1
  funext context
  simp only [Slot.validateWith_eq]
  cases context.elements.lengthSlot.validate desc with
  | accepted => rfl
  | rejected reason => cases raises <;> rfl

theorem deleteRangeWith_off (floor count : Nat) :
    deleteRangeWith .off floor count = deleteRange floor count := by
  induction count with
  | zero => rfl
  | succ count ih =>
    unfold deleteRangeWith deleteRange
    simp only [deleteWith_off, Action.voice_false, ih]
    rfl

theorem deleteEachWith_off (indices : List Nat) :
    deleteEachWith .off indices = deleteEach indices := by
  induction indices with
  | nil => rfl
  | cons index rest ih =>
    rw [deleteEachWith, deleteWith_off, Action.voice_false, ih]
    rfl

theorem indicesFromWith_off (length : Nat) : indicesFromWith .off length = indicesFrom length := by
  unfold indicesFromWith indicesFrom
  rw [Store.keysWith_off]

theorem clearWith_off (length oldLength : Nat) :
    clearWith .off length oldLength = clear length oldLength := by
  unfold clearWith clear
  simp only [deleteRangeWith_off, deleteEachWith_off, indicesFromWith_off]
  rfl

theorem shrinkWith_off (length oldLength : Nat) (writable : Bool) :
    shrinkWith .off raises length oldLength writable =
      voice raises (shrink length oldLength writable) := by
  unfold shrinkWith shrink
  rw [Action.voice_bind, clearWith_off]
  congr 1
  funext stopped
  cases stopped with
  | none => rfl
  | some index =>
    simp only [Action.voice_ite, Action.voice_bind, Action.voice_rejected, Action.voice_throw]

theorem defineLengthWith_off (desc : Descriptor) :
    defineLengthWith .off raises desc = voice raises (defineLength desc) := by
  unfold defineLengthWith defineLength
  cases lengthOf? desc.value with
  | none =>
    simp only [Action.voice_ite, applyLengthWith_eq, Action.voice_throw]
    rfl
  | some length =>
    simp only [Action.voice_ite, applyLengthWith_eq]
    congr 1
    rw [Action.require_off, Action.voice_bind]
    congr 1
    funext context
    simp only [Action.voice_ite, Action.voice_rejected]
    rw [Action.voice_follow]
    · refine ite_congr rfl (fun _ => rfl) fun _ => ite_congr rfl (fun _ => rfl) fun _ => ?_
      refine bind_congr fun verdict => ?_
      cases verdict with
      | accepted => exact shrinkWith_off ..
      | rejected reason => rfl
    · exact fun reason => rfl

end Elements

/-! ### Objects -/

namespace Object

variable {raises : Bool}

theorem voice_onStore (action : Store.Action Verdict) :
    voice raises (onStore action) = onStore (voice raises action) :=
  Action.voice_focus ..

theorem voice_onElements (elements : Elements) (action : Elements.Action Verdict) :
    voice raises (onElements elements action) = onElements elements (voice raises action) :=
  Action.voice_focus ..

theorem getOwnWith_off (key : Key) : getOwnWith .off key = getOwn key := by
  unfold getOwnWith
  simp only [Elements.getOwnWith_off, Store.slotWith?_off]
  rfl

theorem defineWith_off (key : Key) (desc : Descriptor) :
    defineWith .off raises key desc = voice raises (define key desc) := by
  unfold defineWith define
  rw [Action.voice_bind]
  congr 1
  funext context
  cases place : context.object.place key with
  | element elements index => simp only [place, voice_onElements, Elements.defineWith_off]
  | length elements => simp only [place, voice_onElements, Elements.defineLengthWith_off]
  | store => simp only [place, voice_onStore, Store.defineWith_off]

theorem deleteWith_off (key : Key) : deleteWith .off raises key = voice raises (delete key) := by
  unfold deleteWith delete
  rw [Action.voice_bind]
  congr 1
  funext context
  cases context.object.place key with
  | element elements index => simp only [voice_onElements, Elements.deleteWith_off]
  | length elements => rfl
  | store => simp only [voice_onStore, Store.deleteWith_off]

theorem keysWith_off (filter : KeyFilter) : keysWith .off filter = keys filter := by
  unfold keysWith
  rw [Store.keysWith_off]
  rfl

end Object

/-! ### Realms -/

namespace Realm

variable {raises : Bool}

theorem voice_onObject (handle : Handle) (action : Object.Action Verdict) :
    voice raises (onObject handle action) = onObject handle (voice raises action) := by
  unfold onObject
  simp only [Action.voice_bind, Action.voice_focus]

theorem makeUniqueWith_off (handle : Handle) : makeUniqueWith .off handle = makeUnique handle := by
  unfold makeUniqueWith makeUnique
  simp only [Shapes.newUniqueFromWith_off]

theorem getOwnWith_off (handle : Handle) (key : Key) :
    getOwnWith .off handle key = getOwn handle key := by
  rw [getOwnWith, getOwn, Object.getOwnWith_off]

theorem onDefineWith_off (handle : Handle) (key : Key) (desc : Descriptor) :
    onObject handle (Object.defineWith .off raises key desc) =
      voice raises (onObject handle (Object.define key desc)) := by
  rw [voice_onObject, Object.defineWith_off]

theorem defineWith_off (handle : Handle) (key : Key) (desc : Descriptor) :
    defineWith .off raises handle key desc = define handle key desc raises := by
  rw [defineWith, define, Action.report_eq_voice, onDefineWith_off]

theorem deleteWith_off (handle : Handle) (key : Key) :
    deleteWith .off raises handle key = delete handle key raises := by
  rw [deleteWith, delete, Action.report_eq_voice, voice_onObject, Object.deleteWith_off]

theorem keysWith_off (handle : Handle) (filter : KeyFilter) :
    keysWith .off handle filter = keys handle filter := by
  rw [keysWith, keys, Object.keysWith_off]

theorem searchWith_off (key : Key) (bound : Nat) (handle : Handle) :
    searchWith .off key bound handle = search key bound handle := by
  induction bound generalizing handle with
  | zero => rfl
  | succ bound ih =>
    unfold searchWith
    simp only [getOwnWith_off, ih]
    rfl

theorem getPropertyWith_off (handle : Handle) (key : Key) :
    getPropertyWith .off handle key = getProperty handle key := by
  unfold getPropertyWith getProperty
  simp only [searchWith_off]

theorem readWith_off (host : Host) (handle : Handle) (key : Key) :
    readWith .off host handle key = read host handle key := by
  unfold readWith
  rw [getPropertyWith_off]
  rfl

theorem assignmentWith_off (handle : Handle) (key : Key) :
    assignmentWith .off handle key = assignment handle key := by
  unfold assignmentWith
  simp only [getOwnWith_off, getPropertyWith_off]
  rfl

theorem assignWith_off (host : Host) (handle : Handle) (key : Key) (value : Value) :
    assignWith .off raises host handle key value =
      voice raises (assign host handle key value) := by
  unfold assignWith assign
  rw [Action.voice_bind, assignmentWith_off]
  congr 1
  funext decision
  cases decision with
  | refused => rfl
  | setter function =>
    symm
    exact Action.voice_bind ..
  | overwrite | create => exact onDefineWith_off ..

theorem putWith_off (host : Host) (handle : Handle) (key : Key) (value : Value) :
    putWith .off raises host handle key value = put host handle key value raises := by
  rw [putWith, put, Action.report_eq_voice, assignWith_off]

end Realm

/-- With nothing checked a request is what it is. -/
theorem Request.performWith_off (host : Host) (request : Request) :
    request.performWith .off host = request.perform host := by
  cases request with
  | makeUnique object =>
    rw [performWith, Realm.makeUniqueWith_off]
    rfl
  | getOwn object key =>
    rw [performWith, Realm.getOwnWith_off]
    rfl
  | getProperty object key =>
    rw [performWith, Realm.getPropertyWith_off]
    rfl
  | read object key =>
    rw [performWith, Realm.readWith_off]
    rfl
  | put object key value raises =>
    rw [performWith, Realm.putWith_off]
    rfl
  | define object key desc raises =>
    rw [performWith, Realm.defineWith_off]
    rfl
  | delete object key raises =>
    rw [performWith, Realm.deleteWith_off]
    rfl
  | keys object filter =>
    rw [performWith, Realm.keysWith_off]
    rfl
  | _ => rfl

end HiddenClass
