import HiddenClass.Proofs.Elements.Refused
import HiddenClass.Proofs.Proper

/-!
How an array becomes sparse. It is sparse for good then, and only a definition can have done it, of an
element that is not plain.
-/

namespace HiddenClass

variable {desc : Descriptor} {extensible : Bool}

/-- A writable, enumerable, configurable data property. -/
def Descriptor.isPlainData (desc : Descriptor) : Bool :=
  desc.isData && desc.isWritable && desc.isEnumerable && desc.isConfigurable

namespace Slot

/-- A property that is looked up as a plain one has the flags of one. -/
theorem flags_of_plainData {slot : Slot} (type : slot.flags.data = !slot.flags.accessor)
    (simple : slot.toDescriptor.isPlainData = true) : slot.flags = .plain := by
  obtain ⟨value, getter, setter, ⟨writable, enumerable, configurable, data, accessor⟩⟩ := slot
  change data = !accessor at type
  cases accessor with
  | true => cases simple
  | false =>
    simp only [Descriptor.isPlainData, Bool.and_eq_true] at simple
    obtain ⟨⟨⟨_, writes⟩, lists⟩, configures⟩ := simple
    change writable = true at writes
    change enumerable = true at lists
    change configurable = true at configures
    rw [type, writes, lists, configures]
    rfl

/-- A new property with the flags of a plain one was asked for as one. -/
theorem isPlain_of_flags (plain : (Slot.ofDescriptor desc).flags = .plain) :
    desc.isPlain = true := by
  unfold ofDescriptor at plain
  by_cases accessor : desc.isAccessor = true
  · simp only [if_pos accessor] at plain
    cases congrArg Flags.accessor plain
  · simp only [if_neg accessor] at plain
    have writes := congrArg Flags.writable plain
    have lists := congrArg Flags.enumerable plain
    have configures := congrArg Flags.configurable plain
    simp only [Flags.plain, Bool.and_eq_true] at writes lists configures
    simp [Descriptor.isPlain, lists, configures, accessor, writes.2]

end Slot

namespace Elements.View

variable {view : View} {bound index : Nat}

/-! ### Other requests -/

theorem dense_deleteEach (indices : List Nat) (view : View) :
    (view.deleteEach indices).2.dense = view.dense := by
  induction indices generalizing view with
  | nil => rfl
  | cons first rest ih =>
    rw [← dense_delete view first]
    unfold View.deleteEach
    simp only
    split
    · exact ih _
    · rfl

theorem dense_applyLength (desc : Descriptor) (view : View) :
    (view.applyLength desc).2.dense = view.dense := by
  unfold applyLength
  split <;> rfl

theorem dense_shrink (doomed : List Nat) (length : Nat) (writable : Bool) (view : View) :
    (view.shrink doomed length writable).2.dense = view.dense := by
  rw [← dense_deleteEach doomed view]
  unfold shrink
  simp only
  split
  · rfl
  · split <;> rfl

theorem dense_defineLength (doomed : List Nat) (desc : Descriptor) (view : View) :
    (view.defineLength doomed desc).2.dense = view.dense := by
  unfold defineLength
  split
  · exact dense_applyLength desc view
  · cases lengthOf? desc.value with
    | none => rfl
    | some length =>
      rcases view.assignLength_cases length desc.attributes with
        ⟨_, same⟩ | ⟨_, same⟩ | ⟨_, _, _, same⟩
      · simp only [same]
        exact dense_applyLength _ view
      · simp only [same]
      · simp only [same]
        exact dense_shrink ..

/-! ### Defining an element -/

theorem dense_moveToStore (sparse : view.dense = false) (index : Nat) :
    (view.moveToStore index).dense = false := by
  unfold moveToStore
  split
  · rfl
  · exact sparse

theorem dense_reach (oldLength index : Nat) (view : View) :
    (view.reach oldLength index).dense = view.dense := by
  unfold reach
  split <;> rfl

theorem record_reach (oldLength index : Nat) (view : View) :
    (view.reach oldLength index).record = view.record := by
  unfold reach
  split <;> rfl

/-- A sparse array stays sparse. -/
theorem sparse_define (sparse : view.dense = false) (bound index : Nat) (desc : Descriptor)
    (extensible : Bool) : (view.define bound index desc extensible).2.dense = false := by
  have stored : (view.defineStored index desc extensible).2.dense = false := by
    unfold defineStored
    simp only
    split
    · rfl
    · exact dense_moveToStore sparse index
  have defined : (view.defineElement bound index desc extensible).2.dense = false := by
    unfold defineElement
    split
    · split <;> exact sparse
    · exact stored
  unfold View.define
  split
  · exact sparse
  · simp only
    split
    · exact (dense_reach ..).trans defined
    · exact defined

/-- In the store a definition comes to what it does to the one property. -/
theorem defineStored_eq (sound : view.Sound) (index : Nat) (desc : Descriptor) (extensible : Bool) :
    (view.defineStored index desc extensible).1 =
        (Slot.define ((view.moveToStore index).stored index) desc extensible).1 ∧
      (view.defineStored index desc extensible).2.stored index =
        (Slot.define ((view.moveToStore index).stored index) desc extensible).2 := by
  obtain ⟨answer, after⟩ :=
    (sound.moveToStore index).record.define_eq (.index index) desc extensible
  have found : ((view.moveToStore index).record.define (.index index) desc extensible).2.find?
      (.index index) = (Slot.define ((view.moveToStore index).stored index) desc extensible).2 := by
    rw [after, if_pos rfl]
    rfl
  unfold defineStored
  simp only
  cases verdict : ((view.moveToStore index).record.define (.index index) desc extensible).1 with
  | accepted => exact ⟨verdict.symm.trans answer, found⟩
  | rejected reason => exact ⟨verdict.symm.trans answer, found⟩

/-- A property that goes to the store of a dense array is no plain one. -/
theorem not_plain_of_defineStored (sound : view.Sound) (solid : view.element index ≠ some .hole)
    (small : index < Key.indexBound) (dense : view.dense = true)
    (plain : view.plainValue index desc = none)
    (accepted : (view.defineStored index desc extensible).1 = .accepted) :
    ∃ slot, (view.defineStored index desc extensible).2.stored index = some slot ∧
      slot.flags ≠ .plain := by
  obtain ⟨answer, after⟩ := defineStored_eq sound index desc extensible
  rw [accepted] at answer
  rw [after]
  -- an element that is there is moved first and merged then; the other is made from the descriptor
  cases held : view.element index with
  | some current =>
    have whole : current ≠ .hole := fun hole => solid (held.trans (congrArg some hole))
    have peeked := peek_of_held held (Value.isHole_eq_false whole)
    have different : ((Slot.plain current).merge desc).flags ≠ .plain := by
      intro same
      unfold plainValue at plain
      rw [peeked] at plain
      simp only [if_pos same] at plain
      cases plain
    rw [stored_moveToStore sound held]
    have accepts : (Slot.plain current).validate desc = .accepted :=
      Slot.validate_of_configurable rfl desc
    simp only [Slot.define, accepts]
    exact ⟨_, rfl, different⟩
  | none =>
    rw [moveToStore_of_empty held, sound.dense dense index small] at answer ⊢
    have asked : ¬desc.isPlain = true := by
      intro simple
      unfold plainValue peek at plain
      simp only [held, Option.filter_none, simple, Bool.not_true, Bool.false_eq_true, if_false, dense,
        if_true] at plain
      cases plain
    cases extensible with
    | false => cases answer
    | true => exact ⟨_, rfl, fun same => asked (Slot.isPlain_of_flags same)⟩

theorem spoilt_defineElement (sound : view.Sound) (solid : view.element index ≠ some .hole)
    (small : index < Key.indexBound) (dense : view.dense = true)
    (accepted : (view.defineElement bound index desc extensible).1 = .accepted)
    (sparse : (view.defineElement bound index desc extensible).2.dense = false) :
    ∃ slot, (view.defineElement bound index desc extensible).2.stored index = some slot ∧
      slot.flags ≠ .plain := by
  unfold defineElement at accepted sparse ⊢
  cases plain : view.plainValue index desc with
  | none =>
    rw [plain] at accepted
    exact not_plain_of_defineStored sound solid small dense plain accepted
  | some value =>
    have kept : (view.put bound index value).dense = view.dense := rfl
    simp only [plain] at accepted sparse
    split at accepted
    · cases accepted
    · rename_i room
      rw [if_neg room, kept, dense] at sparse
      cases sparse

/-- A dense array becomes sparse only when an element becomes what no element of a dense array is. -/
theorem spoilt_define (sound : view.Sound) (solid : view.element index ≠ some .hole)
    (small : index < Key.indexBound) (dense : view.dense = true)
    (sparse : (view.define bound index desc extensible).2.dense = false) :
    (view.define bound index desc extensible).1 = .accepted ∧
      ∃ slot, (view.define bound index desc extensible).2.stored index = some slot ∧
        slot.flags ≠ .plain := by
  have accepted : (view.define bound index desc extensible).1 = .accepted := by
    by_contra refused
    rw [define_refused sound refused, dense] at sparse
    cases sparse
  apply And.intro accepted
  unfold View.define at accepted sparse ⊢
  by_cases beyond : (view.length ≤ index && !view.lengthWritable) = true
  · rw [if_pos beyond] at accepted
    cases accepted
  · rw [if_neg beyond] at accepted sparse ⊢
    simp only at accepted sparse ⊢
    cases verdict : (view.defineElement bound index desc extensible).1 with
    | rejected reason =>
      rw [verdict] at accepted
      cases accepted
    | accepted =>
      simp only [verdict, dense_reach] at sparse
      simp only [stored, record_reach]
      exact spoilt_defineElement sound solid small dense verdict sparse

end Elements.View

end HiddenClass
