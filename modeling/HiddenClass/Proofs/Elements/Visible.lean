import HiddenClass.Proofs.Creation
import HiddenClass.Proofs.Elements.Refused

/-!
What a program finds at an index of an array, and what a definition makes of it. A property that is
found is redefined in the same way wherever it is kept and wherever it is kept afterwards.
-/

namespace HiddenClass

/-- A property with the flags of a plain one is plain. -/
theorem Slot.Proper.eq_plain {P : Value → Prop} {slot : Slot} (proper : slot.Proper P)
    (flags : slot.flags = .plain) : slot = .plain slot.value := by
  obtain ⟨getter, setter⟩ := proper.data (by rw [flags]; rfl)
  cases slot
  cases flags
  cases getter
  cases setter
  rfl

theorem Slot.define_of_accepted {slot : Slot} {desc : Descriptor}
    (accepted : slot.validate desc = .accepted) (extensible : Bool) :
    Slot.define (some slot) desc extensible = (.accepted, some (slot.merge desc)) := by
  simp only [Slot.define, accepted]

theorem Slot.define_of_rejected {slot : Slot} {desc : Descriptor} {reason : Rejection}
    (rejected : slot.validate desc = .rejected reason) (extensible : Bool) :
    Slot.define (some slot) desc extensible = (.rejected reason, some slot) := by
  simp only [Slot.define, rejected]

namespace Elements.View

variable {view after : View} {index other bound : Nat} {value : Value} {slot : Slot}
  {desc : Descriptor} {extensible : Bool}

/-- The property that is found at an index. A hole hides nothing and shows nothing. -/
def visible (view : View) (index : Nat) : Option Slot :=
  match view.peek index with
  | some value => some (.plain value)
  | none => view.stored index

theorem visible_of_peek (peeked : view.peek index = some value) :
    view.visible index = some (.plain value) := by
  rw [visible, peeked]

theorem visible_of_absent (peeked : view.peek index = none) :
    view.visible index = view.stored index := by
  rw [visible, peeked]

theorem visible_congr (element : after.element index = view.element index)
    (stored : after.stored index = view.stored index) :
    after.visible index = view.visible index := by
  unfold visible peek
  rw [element, stored]

theorem visible_eq_none_iff :
    view.visible index = none ↔ view.peek index = none ∧ view.stored index = none := by
  unfold visible
  cases view.peek index <;> simp

theorem solid_of_peek (peeked : view.peek index = some value) : value.Solid := by
  rintro rfl
  have visible := (Option.filter_eq_some_iff.mp peeked).2
  cases visible

/-- What is found is an element or a stored property. -/
theorem owns_of_visible (found : view.visible index = some slot) : view.owns index = true := by
  rw [owns_iff]
  cases peeked : view.peek index with
  | some value =>
    exact Or.inl (Option.isSome_iff_exists.mpr ⟨value, (Option.filter_eq_some_iff.mp peeked).1⟩)
  | none =>
    rw [visible_of_absent peeked] at found
    exact Or.inr (Option.isSome_iff_exists.mpr ⟨slot, found⟩)

theorem Sound.getOwn_visible (sound : view.Sound) (small : index < Key.indexBound) :
    view.getOwn index = (view.visible index).map Slot.toDescriptor := by
  cases peeked : view.peek index with
  | some value =>
    rw [getOwn_of_peek peeked, visible_of_peek peeked]
    rfl
  | none =>
    rw [getOwn_of_absent peeked, visible_of_absent peeked]
    by_cases dense : view.dense = true
    · rw [if_pos dense, sound.dense dense index small]
      rfl
    · rw [if_neg dense]

/-- Two arrays that differ in what they have at one index only, and in whether they are dense. -/
structure Beside (view after : View) (index : Nat) : Prop where
  element : ∀ other, other ≠ index → after.element other = view.element other
  record : ∀ key, key ≠ .index index → after.record.find? key = view.record.find? key
  length : after.length = view.length
  lengthWritable : after.lengthWritable = view.lengthWritable

theorem Beside.visible (beside : view.Beside after index) (different : other ≠ index) :
    after.visible other = view.visible other :=
  visible_congr (beside.element other different)
    (beside.record _ fun same => different (Key.index.inj same))

theorem Beside.traits (beside : view.Beside after index) {dense : Bool} (same : after.dense = dense) :
    after.traits = { view.traits with dense } := by
  unfold View.traits
  rw [beside.length, beside.lengthWritable, same]

theorem beside_put (view : View) (bound index : Nat) (value : Value) :
    view.Beside (view.put bound index value) index where
  element := fun other different => by rw [element_put, if_neg different]
  record := fun _ _ => rfl
  length := rfl
  lengthWritable := rfl

theorem visible_put (solid : value.Solid) (view : View) (bound index : Nat) :
    (view.put bound index value).visible index = some (.plain value) :=
  visible_of_peek (peek_of_held (put_new solid view bound index) (Value.isHole_eq_false solid))

theorem beside_moveToStore (sound : view.Sound) (index : Nat) :
    view.Beside (view.moveToStore index) index := by
  unfold View.moveToStore
  cases held : view.element index with
  | none => exact ⟨fun _ _ => rfl, fun _ _ => rfl, rfl, rfl⟩
  | some current =>
    refine ⟨fun other different => ?_, fun key different => ?_, rfl, rfl⟩
    · exact (element_drop ..).trans (if_neg different)
    · exact sound.record.find?_define_of_ne different ..

theorem beside_defineStored (sound : view.Sound) (index : Nat) (desc : Descriptor)
    (extensible : Bool) : view.Beside (view.defineStored index desc extensible).2 index := by
  have moved := beside_moveToStore sound index
  have record : ∀ key, key ≠ .index index →
      ((view.moveToStore index).record.define (.index index) desc extensible).2.find? key =
        view.record.find? key := fun key different =>
    ((sound.moveToStore index).record.find?_define_of_ne different ..).trans
      (moved.record key different)
  unfold View.defineStored
  simp only
  split <;> exact ⟨moved.element, record, moved.length, moved.lengthWritable⟩

/-- What is found is stored once it has been moved. -/
theorem stored_of_moved (sound : view.Sound) (found : view.visible index = some slot) :
    (view.moveToStore index).record.find? (.index index) = some slot := by
  cases held : view.element index with
  | some current =>
    have stored := stored_moveToStore sound held
    cases visible : current.isHole with
    | false =>
      rw [visible_of_peek (peek_of_held held visible)] at found
      exact stored.trans found
    | true =>
      have nothing : view.peek index = none := by
        rw [peek, held, Option.filter_some, visible]
        rfl
      rw [visible_of_absent nothing, sound.apart index (by rw [held]; rfl)] at found
      cases found
  | none =>
    rw [moveToStore_of_empty held]
    exact (visible_of_absent (peek_of_empty held)).symm.trans found

/-- What a descriptor makes of a plain element is the value that it has then. -/
theorem merge_eq_plain (given : desc.All Value.Solid) {current : Value} (solid : current.Solid)
    (peeked : view.peek index = some current) (plain : view.plainValue index desc = some value) :
    (Slot.plain current).merge desc = .plain value ∧ value.Solid := by
  have merged := Slot.proper_merge Value.solid_undefined
    (Slot.proper_plain Value.solid_undefined solid) given
  unfold plainValue at plain
  simp only [peeked] at plain
  split at plain
  · rename_i flags
    rw [← Option.some.inj plain]
    exact ⟨merged.eq_plain flags, merged.value⟩
  · cases plain

section Found

variable (sound : view.Sound) (found : view.visible index = some slot)
include sound found

/-- In the store a property is defined like any other, the one that has been moved there too. -/
theorem defineStored_found (desc : Descriptor) (extensible : Bool) :
    let made := Slot.define (some slot) desc extensible
    (view.defineStored index desc extensible).1 = made.1 ∧
      (view.defineStored index desc extensible).2.visible index = made.2 := by
  have empty := peek_of_empty (view.element_moveToStore index)
  obtain ⟨verdict, after⟩ :=
    (sound.moveToStore index).record.define_eq (.index index) desc extensible
  rw [stored_of_moved sound found] at verdict after
  have stored := (after (.index index)).trans (if_pos rfl)
  unfold View.defineStored
  simp only [verdict]
  cases (Slot.define (some slot) desc extensible).1 with
  | accepted => exact ⟨rfl, Eq.trans (visible_of_absent empty) stored⟩
  | rejected reason => exact ⟨rfl, Eq.trans (visible_of_absent empty) stored⟩

/-- A stored property never becomes an element, and a plain element stays one as long as its flags
do. -/
theorem defineElement_found (given : desc.All Value.Solid) (small : index < Key.indexBound)
    (bound : Nat) (extensible : Bool) :
    let made := Slot.define (some slot) desc extensible
    (view.defineElement bound index desc extensible).1 = made.1 ∧
      (view.defineElement bound index desc extensible).2.visible index = made.2 ∧
      view.Beside (view.defineElement bound index desc extensible).2 index := by
  unfold View.defineElement
  cases plain : view.plainValue index desc with
  | none =>
    obtain ⟨verdict, made⟩ := defineStored_found sound found desc extensible
    exact ⟨verdict, made, beside_defineStored sound index desc extensible⟩
  | some value =>
    cases peeked : view.peek index with
    | none =>
      rw [visible_of_absent peeked, stored_of_plainValue sound small plain] at found
      cases found
    | some current =>
      have solid : current.Solid := solid_of_peek peeked
      obtain ⟨merged, stays⟩ := merge_eq_plain given solid peeked plain
      rw [visible_of_peek peeked] at found
      have accepted : (Slot.plain current).validate desc = .accepted :=
        Slot.validate_of_configurable rfl desc
      rw [← Option.some.inj found, Slot.define_of_accepted accepted, merged]
      simp only [Option.isNone_some, Bool.false_and, Bool.false_eq_true, if_false, true_and]
      exact ⟨visible_put stays view bound index, beside_put view bound index value⟩

/-- Below the length, a property that is found is validated and merged, and all else stays. -/
theorem define_found (given : desc.All Value.Solid) (small : index < Key.indexBound)
    (inside : index < view.length) (bound : Nat) (extensible : Bool) :
    let made := Slot.define (some slot) desc extensible
    (view.define bound index desc extensible).1 = made.1 ∧
      (view.define bound index desc extensible).2.visible index = made.2 ∧
      view.Beside (view.define bound index desc extensible).2 index := by
  obtain ⟨verdict, made, beside⟩ :=
    defineElement_found sound found given small bound extensible
  have within : ¬(view.length ≤ index && !view.lengthWritable) = true := by
    simp [Nat.not_le.mpr inside]
  have unreached : ∀ view' : View, view'.reach view.length index = view' :=
    fun _ => if_neg (Nat.not_le.mpr inside)
  unfold View.define
  simp only [if_neg within, unreached, ← verdict]
  cases (view.defineElement bound index desc extensible).1 with
  | accepted => exact ⟨rfl, made, beside⟩
  | rejected reason => exact ⟨rfl, made, beside⟩

end Found

/-- Where nothing is found, an assignment makes a plain element, if the array can have one more. -/
theorem define_unfound (absent : view.visible index = none) (bound : Nat) (value : Value)
    (extensible : Bool) :
    view.define bound index (.plain value) extensible =
      if view.length ≤ index && !view.lengthWritable then (.rejected .beyondFixedLength, view)
      else if extensible then (.accepted, (view.put bound index value).reach view.length index)
      else (.rejected .notExtensible, view) := by
  obtain ⟨peeked, unstored⟩ := visible_eq_none_iff.mp absent
  have chosen : view.plainValue index (.plain value) = some value :=
    plainValue_new peeked unstored (.plain value)
  unfold View.define View.defineElement
  simp only [chosen, peeked]
  cases extensible <;> rfl

end Elements.View

end HiddenClass
