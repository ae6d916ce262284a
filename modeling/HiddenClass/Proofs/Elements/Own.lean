import HiddenClass.Proofs.Elements.Bounded
import HiddenClass.Proofs.Object

/-!
What an array has at an index, whether it is an element or a stored property. An element stands for the
plain property with its value, and where there are no holes, that is what is answered.
-/

namespace HiddenClass

namespace Elements.View

variable {view : View} {index other : Nat} {value : Value} {slot : Slot}

/-- The property at an index, wherever it is kept. -/
def property (view : View) (index : Nat) : Option Slot :=
  match view.element index with
  | some value => some (.plain value)
  | none => view.stored index

theorem property_of_element (held : view.element index = some value) :
    view.property index = some (.plain value) := by
  rw [property, held]

theorem property_of_stored (empty : view.element index = none) :
    view.property index = view.stored index := by
  rw [property, empty]

/-- Where there is no element, another record may come to hold the property. -/
theorem property_of_record (empty : view.element index = none) (record : Record) (dense : Bool) :
    View.property { view with record, dense } index = record.find? (.index index) :=
  property_of_stored empty

theorem isSome_property (view : View) (index : Nat) :
    (view.property index).isSome = view.owns index := by
  unfold owns
  cases held : view.element index with
  | some value =>
    rw [property_of_element held]
    rfl
  | none =>
    rw [property_of_stored held]
    exact (Bool.false_or _).symm

theorem property_eq_none_iff : view.property index = none ↔ view.owns index = false := by
  rw [← isSome_property, Option.isSome_eq_false_iff, Option.isNone_iff_eq_none]

theorem owns_of_property (present : view.property index = some slot) : view.owns index = true := by
  rw [← isSome_property, present]
  rfl

/-- The indices of an array lie below its length, and so are indices of arrays. -/
theorem Bounded.small (bounded : view.Bounded) (owned : view.owns index = true) :
    index < Key.indexBound := by
  have below := bounded.below index owned
  have word := bounded.word
  unfold Key.indexBound
  omega

theorem Bounded.property_eq_none (bounded : view.Bounded) (beyond : view.length ≤ index) :
    view.property index = none := by
  rw [property_eq_none_iff, Bool.eq_false_iff]
  exact fun owned => Nat.not_lt.mpr beyond (bounded.below index owned)

/-- In a dense array there are elements only. -/
theorem Sound.property_of_dense (sound : view.Sound) (dense : view.dense = true)
    (small : view.owns index = true → index < Key.indexBound) (empty : view.element index = none) :
    view.property index = none := by
  rw [property_of_stored empty]
  cases stored : view.stored index with
  | none => rfl
  | some slot =>
    have owned := owns_iff.mpr (Or.inr (Option.isSome_iff_exists.mpr ⟨slot, stored⟩))
    rw [sound.dense dense index (small owned)] at stored
    cases stored

/-- Where no hole is in its place, the property at an index is the one that is answered. -/
theorem Sound.getOwn_eq (sound : view.Sound) (small : index < Key.indexBound)
    (whole : view.element index ≠ some .hole) :
    view.getOwn index = (view.property index).map Slot.toDescriptor := by
  cases held : view.element index with
  | some value =>
    have solid : value ≠ .hole := fun hole => whole (held.trans (congrArg some hole))
    rw [getOwn_of_peek (peek_of_held held (Value.isHole_eq_false solid)), property_of_element held]
    rfl
  | none =>
    rw [getOwn_of_absent (peek_of_empty held)]
    by_cases dense : view.dense = true
    · rw [if_pos dense, sound.property_of_dense dense (fun _ => small) held]
      rfl
    · rw [if_neg dense, property_of_stored held]

/-- A deletion concerns one index only, and answers from what is there. -/
theorem Sound.property_delete (sound : view.Sound)
    (small : view.owns index = true → index < Key.indexBound) :
    (view.delete index).1 = (Slot.delete (view.property index)).1 ∧
      ∀ other, (view.delete index).2.property other =
        if other = index then (Slot.delete (view.property index)).2 else view.property other := by
  have others : ∀ other, other ≠ index → (view.drop index).property other = view.property other := by
    intro other different
    unfold property
    rw [element_drop, if_neg different]
    rfl
  have dropped : (view.drop index).property index = view.stored index := by
    apply property_of_stored
    rw [element_drop, if_pos rfl]
  unfold View.delete
  by_cases easy : ((view.element index).isSome || view.dense) = true
  · have both : Slot.delete (view.property index) = (.accepted, none) ∧ view.stored index = none := by
      cases held : view.element index with
      | some value =>
        rw [property_of_element held]
        exact ⟨rfl, sound.apart index (Option.isSome_iff_exists.mpr ⟨value, held⟩)⟩
      | none =>
        rw [held, Option.isSome_none, Bool.false_or] at easy
        have absent := sound.property_of_dense easy small held
        rw [absent]
        exact ⟨rfl, (property_of_stored held).symm.trans absent⟩
    rw [if_pos easy, both.1]
    refine ⟨rfl, fun other => ?_⟩
    by_cases same : other = index
    · rw [if_pos same, same, dropped, both.2]
    · rw [if_neg same, others other same]
  · rw [if_neg easy]
    have empty : view.element index = none := by
      rw [Bool.or_eq_true, not_or] at easy
      exact Option.not_isSome_iff_eq_none.mp easy.1
    obtain ⟨answer, after⟩ := sound.record.delete_eq (.index index)
    rw [property_of_stored empty]
    refine ⟨answer, fun other => ?_⟩
    by_cases same : other = index
    · rw [if_pos same, same, property_of_record empty, after, if_pos rfl]
      rfl
    · have apart : Key.index other ≠ .index index := fun equal => same (Key.index.inj equal)
      rw [if_neg same]
      unfold property stored
      rw [after, if_neg apart]

end Elements.View

namespace Object.Content

variable {view : Elements.View} {index id : Nat}

/-- An index past all array indices is a name, and there are no elements. -/
theorem getOwn_index (sound : view.Sound) (whole : view.element index ≠ some .hole) :
    (Content.array view).getOwn (.index index) = (view.property index).map Slot.toDescriptor := by
  by_cases small : index < Key.indexBound
  · have role : (Key.index index).role = .element index := by rw [Key.role_index, if_pos small]
    rw [getOwn_element role, sound.getOwn_eq small whole]
  · have role : (Key.index index).role = .name := by rw [Key.role_index, if_neg small]
    have empty : view.element index = none := by
      rw [← Option.not_isSome_iff_eq_none]
      exact fun held => small (sound.index index held)
    rw [getOwn_name role, Elements.View.property_of_stored empty]
    rfl

theorem getOwn_named (different : Key.named id ≠ Key.length) :
    (Content.array view).getOwn (.named id) =
      (view.record.find? (.named id)).map Slot.toDescriptor := by
  apply getOwn_name
  rw [Key.role_named, if_neg different]

end Object.Content

end HiddenClass
