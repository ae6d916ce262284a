import HiddenClass.Proofs.Elements.Bounded

/-!
Refused changes to an array. They leave its view as it was, though an element may have been on its way
to the store by then, or the length rewritten. Only a shortened array is left where it could not be
shortened any more.
-/

namespace HiddenClass

variable {key : Key} {desc : Descriptor} {extensible : Bool}

theorem Slot.validate_of_configurable {slot : Slot} (configurable : slot.flags.configurable = true)
    (desc : Descriptor) : slot.validate desc = .accepted := by
  unfold validate
  by_cases same : (desc.isAbsent || slot.agrees desc) = true
  · simp only [if_pos same]
  · simp only [if_neg same, if_pos configurable]

namespace Record

variable {record : Record} {slot : Slot}

theorem define_refused (refused : (record.define key desc extensible).1 ≠ .accepted) :
    (record.define key desc extensible).2 = record := by
  unfold define at refused ⊢
  cases found : record.layout.offset? key with
  | none =>
    simp only [found] at refused ⊢
    by_cases allowed : extensible = true
    · rw [if_pos allowed] at refused
      exact absurd rfl refused
    · rw [if_neg allowed]
  | some offset =>
    simp only [found] at refused ⊢
    cases verdict : (record.slot offset).validate desc with
    | accepted =>
      simp only [verdict] at refused
      exact absurd rfl refused
    | rejected reason => rfl

theorem delete_refused (refused : (record.delete key).1 ≠ .accepted) :
    (record.delete key).2 = record := by
  unfold delete at refused ⊢
  cases found : record.layout.offset? key with
  | none => rfl
  | some offset =>
    simp only [found] at refused ⊢
    by_cases deletable : (record.slot offset).flags.configurable = true
    · rw [if_pos deletable] at refused
      exact absurd rfl refused
    · rw [if_neg deletable]

/-- A deletion leaves nothing that was not there. -/
theorem Sound.find?_of_delete (sound : record.Sound) {other : Key}
    (found : (record.delete key).2.find? other = some slot) : record.find? other = some slot := by
  rw [(sound.delete_eq key).2] at found
  by_cases same : other = key
  · rw [if_pos same] at found
    cases present : record.find? key with
    | none =>
      rw [present, Slot.delete] at found
      cases found
    | some current =>
      rw [present, Slot.delete] at found
      split at found
      · cases found
      · rw [same, present]
        exact found
  · rw [if_neg same] at found
    exact found

end Record

namespace Elements.View

variable {view : View} {index bound length : Nat} {indices doomed : List Nat} {slot : Slot}
  {writable : Bool}

/-- An element that has been moved to the store is a plain property still. -/
theorem stored_moveToStore (sound : view.Sound) {current : Value}
    (held : view.element index = some current) :
    (view.moveToStore index).stored index = some (.plain current) := by
  have absent : view.record.find? (.index index) = none :=
    sound.apart index (Option.isSome_iff_exists.mpr ⟨current, held⟩)
  unfold stored moveToStore
  rw [held]
  simp only [(sound.record.define_eq (.index index) (.plain current) true).2, if_true, absent]
  rfl

/-- It can be made anything then. -/
theorem define_of_moved (sound : view.Sound) {current : Value}
    (held : view.element index = some current) (desc : Descriptor) (extensible : Bool) :
    ((view.moveToStore index).record.define (.index index) desc extensible).1 = .accepted := by
  have stored : (view.moveToStore index).record.find? (.index index) = some (.plain current) :=
    stored_moveToStore sound held
  have accepts : (Slot.plain current).validate desc = .accepted :=
    Slot.validate_of_configurable rfl desc
  rw [((sound.moveToStore index).record.define_eq (.index index) desc extensible).1, stored]
  simp only [Slot.define, accepts]

theorem defineStored_refused (sound : view.Sound)
    (refused : (view.defineStored index desc extensible).1 ≠ .accepted) :
    (view.defineStored index desc extensible).2 = view := by
  unfold defineStored at refused ⊢
  simp only at refused ⊢
  cases verdict : ((view.moveToStore index).record.define (.index index) desc extensible).1 with
  | accepted =>
    rw [verdict] at refused
    exact absurd rfl refused
  | rejected reason =>
    cases held : view.element index with
    | some current =>
      rw [define_of_moved sound held desc extensible] at verdict
      cases verdict
    | none =>
      rw [moveToStore_of_empty held] at verdict ⊢
      have kept : (view.record.define (.index index) desc extensible).2 = view.record := by
        apply Record.define_refused
        rw [verdict]
        exact Verdict.noConfusion
      simp only [kept]

theorem define_refused (sound : view.Sound)
    (refused : (view.define bound index desc extensible).1 ≠ .accepted) :
    (view.define bound index desc extensible).2 = view := by
  unfold View.define at refused ⊢
  by_cases beyond : (view.length ≤ index && !view.lengthWritable) = true
  · rw [if_pos beyond]
  · rw [if_neg beyond] at refused ⊢
    simp only at refused ⊢
    cases verdict : (view.defineElement bound index desc extensible).1 with
    | accepted =>
      rw [verdict] at refused
      exact absurd rfl refused
    | rejected reason =>
      simp only
      unfold defineElement at verdict ⊢
      cases plain : view.plainValue index desc with
      | none =>
        rw [plain] at verdict
        apply defineStored_refused sound
        rw [verdict]
        exact Verdict.noConfusion
      | some value =>
        simp only [plain] at verdict ⊢
        split at verdict
        · rename_i full
          rw [if_pos full]
        · cases verdict

theorem delete_refused (refused : (view.delete index).1 ≠ .accepted) :
    (view.delete index).2 = view := by
  cases verdict : (view.delete index).1 with
  | accepted => exact absurd verdict refused
  | rejected reason => exact (delete_rejected verdict).1

theorem applyLength_refused (refused : (view.applyLength desc).1 ≠ .accepted) :
    (view.applyLength desc).2 = view := by
  unfold applyLength at refused ⊢
  cases verdict : view.lengthSlot.validate desc with
  | accepted =>
    rw [verdict] at refused
    exact absurd rfl refused
  | rejected reason => rfl

theorem stored_of_delete (sound : view.Sound) {other : Nat}
    (stored : (view.delete index).2.stored other = some slot) : view.stored other = some slot := by
  unfold View.delete at stored
  split at stored
  · exact stored
  · exact sound.record.find?_of_delete stored

/-- The deletions stop at a stored property that is not configurable and was there before. -/
theorem deleteEach_stopped (sound : view.Sound) (stopped : (view.deleteEach indices).1 = some index) :
    index ∈ indices ∧ ∃ slot, view.stored index = some slot ∧ slot.flags.configurable = false := by
  induction indices generalizing view with
  | nil => cases stopped
  | cons first rest ih =>
    cases verdict : (view.delete first).1 with
    | accepted =>
      rw [deleteEach_accepted verdict] at stopped
      obtain ⟨member, slot, stored, fixed⟩ := ih (sound.delete first) stopped
      exact ⟨List.mem_cons_of_mem first member, slot, stored_of_delete sound stored, fixed⟩
    | rejected reason =>
      rw [deleteEach_rejected verdict] at stopped
      cases stopped
      refine ⟨List.mem_cons_self .., ?_⟩
      unfold View.delete at verdict
      split at verdict
      · cases verdict
      · have answer := (sound.record.delete_eq (.index index)).1.symm.trans verdict
        unfold Slot.delete at answer
        cases present : view.record.find? (.index index) with
        | none =>
          rw [present] at answer
          cases answer
        | some slot =>
          simp only [present] at answer
          split at answer
          · cases answer
          · rename_i fixed
            exact ⟨slot, present, Bool.eq_false_iff.mpr fixed⟩

/-- How the array ends up when the property at an index stays. -/
def stopping (index : Nat) : Except Fault Verdict :=
  if index < Key.indexBound then .ok (.rejected .shrinkStopped) else .error .overflow

/-- A property that is not configurable stops the array from being shortened to the length that the
descriptor gives. -/
structure Stops (view : View) (doomed : List Nat) (desc : Descriptor) (length index : Nat) : Prop where
  given : desc.lacksValue = false
  sought : lengthOf? desc.value = some length
  shorter : length < view.length
  listed : index ∈ doomed
  fixed : ∃ slot, view.stored index = some slot ∧ slot.flags.configurable = false
  ending : (view.defineLength doomed desc).1 = stopping index

theorem fst_shrink_of_stopped (stopped : (view.deleteEach doomed).1 = some index) (length : Nat)
    (writable : Bool) : (view.shrink doomed length writable).1 = stopping index := by
  rw [shrink_of_stopped stopped, stopping]
  split <;> rfl

theorem assignLength_refused (sound : view.Sound) {attributes : Attributes}
    (refused : (view.assignLength doomed length attributes).1 ≠ .ok .accepted) :
    (view.assignLength doomed length attributes).2 = view ∨
      length < view.length ∧ ∃ index ∈ doomed,
        (∃ slot, view.stored index = some slot ∧ slot.flags.configurable = false) ∧
        (view.assignLength doomed length attributes).1 = stopping index := by
  rcases view.assignLength_cases length attributes with ⟨_, same⟩ | ⟨_, same⟩ | ⟨shorter, _, _, same⟩
  · rw [same] at refused ⊢
    exact Or.inl (applyLength_refused fun accepted => refused (congrArg Except.ok accepted))
  · rw [same]
    exact Or.inl rfl
  · rw [same] at refused ⊢
    cases stopped : ((view.lowered length attributes).deleteEach doomed).1 with
    | none =>
      unfold shrink at refused
      simp only [stopped] at refused
      exact absurd rfl refused
    | some index =>
      obtain ⟨member, slot, stored, fixed⟩ :=
        deleteEach_stopped (sound.lowered length attributes) stopped
      exact Or.inr ⟨shorter, index, member, ⟨slot, stored, fixed⟩,
        fst_shrink_of_stopped stopped ..⟩

theorem defineLength_refused (sound : view.Sound)
    (refused : (view.defineLength doomed desc).1 ≠ .ok .accepted) :
    (view.defineLength doomed desc).2 = view ∨ ∃ length index, view.Stops doomed desc length index := by
  by_cases bare : desc.lacksValue = true
  · unfold defineLength at refused ⊢
    rw [if_pos bare] at refused ⊢
    exact Or.inl (applyLength_refused fun accepted => refused (congrArg Except.ok accepted))
  · cases wanted : lengthOf? desc.value with
    | none =>
      left
      unfold defineLength
      rw [if_neg bare, wanted]
    | some length =>
      have assigned : view.defineLength doomed desc =
          view.assignLength doomed length desc.attributes := by
        unfold defineLength
        rw [if_neg bare, wanted]
      rw [assigned] at refused ⊢
      apply (assignLength_refused sound refused).imp_right
      rintro ⟨shorter, index, member, fixed, ending⟩
      exact ⟨length, index, Bool.eq_false_iff.mpr bare, wanted, shorter, member, fixed,
        assigned ▸ ending⟩

end Elements.View

end HiddenClass
