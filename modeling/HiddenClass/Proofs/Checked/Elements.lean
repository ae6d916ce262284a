import HiddenClass.Proofs.Checked.Shapes
import HiddenClass.Proofs.Elements.Refinement

/-!
Stores and arrays pass their checks, and refuse what the plain operations refuse. A name in the layout
of a store has a slot that is there, and the deletions that shorten an array start where the ones
before them led.
-/

namespace HiddenClass

open HiddenClass.Action (Passes voice)

variable {guards : Guards} {raises : Bool}

namespace Store

variable {store : Store} {chart : Chart} {record : Record} {key : Key}

theorem passes_onShapes {α : Type} {checked action : Shapes.Action α} {shapes : Shapes}
    (inner : Passes guards.sizes id checked action shapes) (store : Store) :
    Passes guards.sizes Context.shapes (onShapes checked) (onShapes action) ⟨store, shapes⟩ :=
  inner.focus rfl fun _ => rfl

theorem passes_update (change : Store → Store) (context : Context) :
    Passes guards.sizes Context.shapes (update change) (update change) context :=
  Action.passes_of_shapes rfl

theorem passes_write (context : Context) {offset : Nat} (bound : offset < context.store.slots.size)
    (slot : Slot) :
    Passes guards.sizes Context.shapes (writeWith guards offset slot)
      (update fun store => store.setSlot offset slot) context :=
  ((passes_update _ context).guard fun _ => bound).look

/-- A change of the store and a slot that is written after it may be one step. -/
theorem passes_changeAndWrite (change : Store → Store) {offset : Nat}
    (bound : offset < (change store).slots.size) (slot : Slot) (shapes : Shapes) :
    Passes guards.sizes Context.shapes (update change >>= fun _ => writeWith guards offset slot)
      (update fun store => (change store).setSlot offset slot) ⟨store, shapes⟩ := by
  have split : Passes guards.sizes Context.shapes
      (update change >>= fun _ => writeWith guards offset slot)
      (update change >>= fun _ => update fun store => store.setSlot offset slot) ⟨store, shapes⟩ :=
    (passes_update change _).step (update_ok change)
      (passes_write ⟨change store, shapes⟩ bound slot)
  exact split

namespace Holds

variable (holds : store.Holds chart record)
include holds

theorem passes_offset (key : Key) :
    Passes guards.sizes Context.shapes (offsetWith? guards key) (offset? key) ⟨store, chart.shapes⟩ :=
  Passes.read (passes_onShapes (Chart.passes_lookup holds.live key) store)

theorem passes_find (key : Key) :
    Passes guards.sizes Context.shapes (findWith? guards key) (find? key) ⟨store, chart.shapes⟩ := by
  obtain ⟨after, _, ran⟩ := holds.offset?_ok key
  refine (holds.passes_offset key).step ran ?_
  cases record.layout.offset? key with
  | none => exact Action.passes_pure none
  | some offset => exact Action.passes_of_shapes rfl

theorem passes_slot (key : Key) :
    Passes guards.sizes Context.shapes (slotWith? guards key) (slot? key) ⟨store, chart.shapes⟩ :=
  (holds.passes_find key).bind fun _ _ _ => Action.passes_pure _

theorem passes_keys (filter : KeyFilter) :
    Passes guards.sizes Context.shapes (keysWith guards filter) (keys filter) ⟨store, chart.shapes⟩ :=
  Passes.read ((passes_onShapes (Chart.passes_names holds.live) store).bind fun _ _ _ =>
    Action.passes_pure _)

theorem passes_insert (absent : record.layout.offset? key = none) (slot : Slot) :
    Passes guards.sizes Context.shapes (insertWith guards key slot) (insert key slot)
      ⟨store, chart.shapes⟩ := by
  have missing : (chart.layouts store.shape).offset? key = none := holds.layout ▸ absent
  obtain ⟨own, after, ran, _, moves, _⟩ := Chart.add_ok holds.live missing
  unfold insertWith insert
  refine Passes.read ?_
  refine (passes_onShapes (Chart.passes_add holds.live missing) store).step (onShapes_ok ran) ?_
  refine (passes_update _ _).step (update_ok _) ?_
  refine Passes.ite (fun bound => ?_) fun _ => ?_
  · exact passes_write ⟨{ store with shape := own }, after.shapes⟩ bound slot
  · obtain ⟨capacity, reserved, _⟩ := Chart.capacity_ok moves.reached
    refine Passes.skip (onShapes_ok reserved) ?_
    let size := max capacity ((chart.layouts store.shape).next + 1)
    have grown : size ≤ (Store.grow { store with shape := own } size).slots.size := size_grow ..
    have room : (chart.layouts store.shape).next < size := by omega
    exact passes_changeAndWrite (fun store => store.grow size) (Nat.lt_of_lt_of_le room grown) slot
      after.shapes

theorem passes_define (key : Key) (desc : Descriptor) (extensible : Bool) :
    Passes guards.sizes Context.shapes (defineWith guards raises key desc extensible)
      (voice raises (define key desc extensible)) ⟨store, chart.shapes⟩ := by
  obtain ⟨after, agrees, ran⟩ := holds.find?_ok key
  rw [← defineWith_off]
  unfold defineWith
  rw [findWith?_off]
  refine (holds.passes_find key).step ran ?_
  cases present : record.layout.offset? key with
  | some offset =>
    refine (Action.passes_validate _ desc).bind fun verdict _ _ => ?_
    cases verdict <;> exact Action.passes_of_shapes rfl
  | none =>
    have kept := holds.extend agrees.extends
    refine Passes.ite (fun _ => ?_) fun _ => Action.passes_refuse _
    rw [insertWith_off]
    exact (kept.passes_insert present _).bind fun _ _ _ => Action.passes_pure _

theorem passes_delete (key : Key) :
    Passes guards.sizes Context.shapes (deleteWith guards raises key) (voice raises (delete key))
      ⟨store, chart.shapes⟩ := by
  obtain ⟨after, agrees, ran⟩ := holds.offset?_ok key
  unfold deleteWith delete
  rw [Action.voice_bind]
  refine (holds.passes_offset key).step ran ?_
  cases present : record.layout.offset? key with
  | none => exact Action.passes_pure _
  | some offset =>
    have bound := holds.offset_lt present
    have kept := holds.extend agrees.extends
    simp only [Action.voice_bind, Action.voice_ite, Action.voice_rejected, Action.voice_accepted]
    refine Passes.read (Passes.guard ?_ fun _ => bound)
    refine Passes.ite (fun _ => ?_) fun _ => Action.passes_refuse _
    obtain ⟨own, later, removed, _, _⟩ := Chart.remove_ok kept.live key
    refine (passes_onShapes (Chart.passes_remove kept.live key) store).step (onShapes_ok removed) ?_
    rw [← bind_assoc]
    exact (passes_changeAndWrite (fun store => { store with shape := own }) bound .vacant _).bind
      fun _ _ _ => Action.passes_pure _

end Holds

end Store

namespace Elements

variable {elements : Elements} {store : Store} {chart : Chart} {view : View} {α β : Type}

theorem passes_onStore {checked action : Store.Action α} {shapes : Shapes}
    (inner : Passes guards.sizes Store.Context.shapes checked action ⟨store, shapes⟩)
    (elements : Elements) :
    Passes guards.sizes Context.shapes (onStore checked) (onStore action)
      ⟨elements, store, shapes⟩ := by
  unfold onStore
  refine Passes.focus ?_ rfl fun _ => rfl
  exact inner

theorem passes_update (change : Elements → Elements) (context : Context) :
    Passes guards.sizes Context.shapes (update change) (update change) context :=
  Action.passes_of_shapes rfl

theorem passes_applyLength (desc : Descriptor) (context : Context) :
    Passes guards.sizes Context.shapes (applyLengthWith raises desc) (applyLengthWith raises desc)
      context := by
  unfold applyLengthWith
  refine Passes.read ((Action.passes_validate _ desc).bind fun verdict _ _ => ?_)
  cases verdict <;> exact Action.passes_of_shapes rfl

/-- The second action starts at what the first leads to. -/
theorem Leads.passes {checked action : Action α} {checkedNext next : α → Action β} {answer : α}
    (leads : Leads action elements store chart answer view)
    (first : Passes guards.sizes Context.shapes checked action ⟨elements, store, chart.shapes⟩)
    (second : ∀ moved kept after, moved.Holds kept after view →
      Passes guards.sizes Context.shapes (checkedNext answer) (next answer)
        ⟨moved, kept, after.shapes⟩) :
    Passes guards.sizes Context.shapes (checked >>= checkedNext) (action >>= next)
      ⟨elements, store, chart.shapes⟩ := by
  obtain ⟨moved, kept, after, ran, holds, _, _⟩ := leads
  exact first.step ran (second moved kept after holds)

namespace Holds

variable (holds : elements.Holds store chart view)
include holds

theorem passes_storedSlot (index : Nat) :
    Passes guards.sizes Context.shapes (storedSlotWith guards index) (Elements.storedSlot index)
      ⟨elements, store, chart.shapes⟩ :=
  passes_onStore (holds.store.passes_slot _) elements

theorem passes_getOwn (index : Nat) :
    Passes guards.sizes Context.shapes (getOwnWith guards index) (Elements.getOwn index)
      ⟨elements, store, chart.shapes⟩ := by
  unfold getOwnWith Elements.getOwn
  refine Passes.read ?_
  cases elements.lookup index with
  | present value => exact Action.passes_pure _
  | absent => exact Action.passes_pure _
  | fallback => exact (holds.passes_storedSlot index).bind fun _ _ _ => Action.passes_pure _

theorem passes_plainValue (index : Nat) (desc : Descriptor) :
    Passes guards.sizes Context.shapes (plainValueWith guards index desc)
      (Elements.plainValue index desc) ⟨elements, store, chart.shapes⟩ := by
  unfold plainValueWith Elements.plainValue
  refine Passes.read ?_
  dsimp only
  cases elements.peek index with
  | some current => exact Action.passes_pure _
  | none =>
    refine Passes.ite (fun _ => Action.passes_pure _) fun _ => ?_
    refine Passes.ite (fun _ => Action.passes_pure _) fun _ => ?_
    exact (holds.passes_storedSlot index).bind fun _ _ _ => Action.passes_pure _

theorem passes_moveToStore (index : Nat) :
    Passes guards.sizes Context.shapes (moveToStoreWith guards index) (Elements.moveToStore index)
      ⟨elements, store, chart.shapes⟩ := by
  unfold moveToStoreWith Elements.moveToStore
  refine Passes.read ?_
  obtain ⟨taken, rest⟩ := elements.take index
  cases taken with
  | none => exact Action.passes_pure _
  | some current =>
    have defined : Passes guards.sizes Store.Context.shapes
        (Store.defineWith guards false (.index index) (.plain current) true)
        (Store.define (.index index) (.plain current) true) ⟨store, chart.shapes⟩ := by
      rw [← Action.voice_false (Store.define (.index index) (.plain current) true)]
      exact holds.store.passes_define ..
    refine (passes_update _ _).step rfl ?_
    exact (passes_onStore defined _).bind fun _ _ _ => Action.passes_pure _

theorem passes_defineStored (index : Nat) (desc : Descriptor) (extensible : Bool) :
    Passes guards.sizes Context.shapes (defineStoredWith guards raises index desc extensible)
      (voice raises (Elements.defineStored index desc extensible))
      ⟨elements, store, chart.shapes⟩ := by
  rw [← defineStoredWith_off]
  unfold defineStoredWith
  rw [moveToStoreWith_off, Store.defineWith_off]
  refine (holds.moveToStore index).passes (holds.passes_moveToStore index) fun moved kept _ held => ?_
  refine (passes_onStore (held.store.passes_define ..) moved).bind fun verdict _ _ => ?_
  cases verdict <;> exact Action.passes_of_shapes rfl

theorem passes_defineElement (index : Nat) (desc : Descriptor) (extensible : Bool) :
    Passes guards.sizes Context.shapes (defineElementWith guards raises index desc extensible)
      (voice raises (Elements.defineElement index desc extensible))
      ⟨elements, store, chart.shapes⟩ := by
  rw [← defineElementWith_off]
  unfold defineElementWith
  rw [plainValueWith_off]
  refine (holds.plainValue index desc).passes (holds.passes_plainValue index desc) ?_
  intro moved kept after held
  cases view.plainValue index desc with
  | none =>
    rw [defineStoredWith_off]
    exact held.passes_defineStored index desc extensible
  | some value =>
    simp only [storeWith_eq]
    exact Passes.read (Passes.ite (fun _ => Action.passes_refuse _) fun _ =>
      Action.passes_of_shapes rfl)

theorem passes_define {index : Nat} (small : index < Key.indexBound) (desc : Descriptor)
    (extensible : Bool) :
    Passes guards.sizes Context.shapes (Elements.defineWith guards raises index desc extensible)
      (voice raises (Elements.define index desc extensible)) ⟨elements, store, chart.shapes⟩ := by
  have word : index + 1 ≤ Config.wordMax := small
  rw [← Elements.defineWith_off]
  unfold Elements.defineWith
  rw [defineElementWith_off]
  refine Passes.read (Passes.ite (fun _ => Action.passes_refuse _) fun _ => ?_)
  refine (holds.passes_defineElement index desc extensible).bind fun verdict after _ => ?_
  cases verdict with
  | rejected reason => exact Action.passes_pure _
  | accepted =>
    refine Passes.ite (fun _ => ?_) fun _ => Action.passes_pure _
    exact (Action.passes_of_shapes rfl).aside (Action.increment_ok word after)

theorem passes_delete (index : Nat) :
    Passes guards.sizes Context.shapes (Elements.deleteWith guards raises index)
      (voice raises (Elements.delete index)) ⟨elements, store, chart.shapes⟩ := by
  rw [← Elements.deleteWith_off]
  unfold Elements.deleteWith
  rw [Store.deleteWith_off]
  refine Passes.read ((passes_update _ _).step rfl ?_)
  refine Passes.ite (fun _ => Action.passes_pure _) fun _ => ?_
  exact passes_onStore (holds.store.passes_delete _) _

/-- What is deleted for the sake of the length is asked quietly. -/
theorem passes_deleteQuietly (index : Nat) :
    Passes guards.sizes Context.shapes (Elements.deleteWith guards false index)
      (Elements.delete index) ⟨elements, store, chart.shapes⟩ := by
  rw [← Action.voice_false (Elements.delete index)]
  exact holds.passes_delete index

theorem passes_deleteRange (floor count : Nat) :
    Passes guards.sizes Context.shapes (deleteRangeWith guards floor count)
      (Elements.deleteRange floor count) ⟨elements, store, chart.shapes⟩ := by
  induction count generalizing elements store chart view with
  | zero => exact Action.passes_pure none
  | succ count ih =>
    unfold deleteRangeWith Elements.deleteRange
    refine Passes.aside (Action.subtract_ok (Nat.le_add_left 1 (floor + count)) _) ?_
    refine (holds.delete (floor + count)).passes (holds.passes_deleteQuietly (floor + count)) ?_
    intro moved kept after held
    cases (view.delete (floor + count)).1 with
    | accepted => exact ih held
    | rejected reason => exact Action.passes_pure _

theorem passes_deleteEach (indices : List Nat) :
    Passes guards.sizes Context.shapes (deleteEachWith guards indices) (Elements.deleteEach indices)
      ⟨elements, store, chart.shapes⟩ := by
  induction indices generalizing elements store chart view with
  | nil => exact Action.passes_pure none
  | cons index rest ih =>
    unfold deleteEachWith Elements.deleteEach
    refine (holds.delete index).passes (holds.passes_deleteQuietly index) fun _ _ _ held => ?_
    cases (view.delete index).1 with
    | accepted => exact ih held
    | rejected reason => exact Action.passes_pure _

theorem passes_indicesFrom (length : Nat) :
    Passes guards.sizes Context.shapes (indicesFromWith guards length) (Elements.indicesFrom length)
      ⟨elements, store, chart.shapes⟩ :=
  (passes_onStore (holds.store.passes_keys .all) elements).bind fun _ _ _ =>
    Action.passes_of_shapes rfl

theorem passes_clear (sound : view.Sound) {length oldLength : Nat} (lower : length ≤ oldLength) :
    Passes guards.sizes Context.shapes (clearWith guards length oldLength)
      (Elements.clear length oldLength) ⟨elements, store, chart.shapes⟩ := by
  obtain ⟨indices, _, _, listed⟩ := holds.indicesFrom sound length
  unfold clearWith Elements.clear
  refine Passes.read (Passes.ite (fun _ => Action.passes_pure none) fun _ => ?_)
  refine Passes.aside (Action.subtract_ok lower _) ?_
  refine Passes.ite (fun _ => holds.passes_deleteRange length (oldLength - length)) fun _ => ?_
  exact listed.passes (holds.passes_indicesFrom length) fun _ _ _ held => held.passes_deleteEach _

theorem passes_shrink (sound : view.Sound) {length oldLength : Nat} (lower : length ≤ oldLength)
    (writable : Bool) :
    Passes guards.sizes Context.shapes (shrinkWith guards raises length oldLength writable)
      (voice raises (Elements.shrink length oldLength writable)) ⟨elements, store, chart.shapes⟩ := by
  rw [← shrinkWith_off]
  unfold shrinkWith
  rw [clearWith_off]
  refine (holds.passes_clear sound lower).bind fun stopped after _ => ?_
  cases stopped with
  | none => exact Action.passes_of_shapes rfl
  | some index =>
    refine Passes.ite (fun _ => ?_) fun _ => Action.passes_throw _
    exact (passes_update _ after).step rfl (Action.passes_refuse _)

theorem passes_defineLength (sound : view.Sound) (desc : Descriptor) :
    Passes guards.sizes Context.shapes (defineLengthWith guards raises desc)
      (voice raises (Elements.defineLength desc)) ⟨elements, store, chart.shapes⟩ := by
  rw [← defineLengthWith_off]
  unfold defineLengthWith
  refine Passes.ite (fun _ => passes_applyLength desc _) fun _ => ?_
  rw [Action.require_off]
  refine Passes.guard ?_ fun _ => desc.value.prefixFits_eq_true
  cases lengthOf? desc.value with
  | none => exact Action.passes_throw _
  | some length =>
    refine Passes.read (Passes.ite (fun _ => passes_applyLength _ _) fun longer => ?_)
    refine Passes.ite (fun _ => Action.passes_refuse _) fun _ => ?_
    let lowered := (Descriptor.data (.ofWord length) desc.attributes).withWritable true
    refine (passes_applyLength lowered _).bind fun verdict after ran => ?_
    cases verdict with
    | rejected reason => exact Action.passes_pure _
    | accepted =>
      -- the array that is shortened is the one whose length was lowered
      obtain ⟨moved, kept, later, applied, held, _, _⟩ := holds.applyLength lowered
      rw [applyLengthWith_eq] at ran
      obtain ⟨_, rfl⟩ := EStateM.Result.ok.inj (applied.symm.trans (Action.ok_of_voice ran))
      rw [shrinkWith_off]
      exact held.passes_shrink (sound.applyLength lowered) (Nat.le_of_not_le longer) _

end Holds

end Elements

end HiddenClass
