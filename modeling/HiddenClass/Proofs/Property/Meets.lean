import HiddenClass.Proofs.Application
import HiddenClass.Proofs.Elements.Visible

/-!
Properties that have all that a descriptor asks for already. Such a property accepts the descriptor and
stays as it is. What an accepted descriptor has made of a property is one of them, and so is any property
for the descriptor that it shows of itself.
-/

namespace HiddenClass

namespace Slot

variable {slot other : Slot} {desc : Descriptor}

/-- The property agrees with the descriptor, which makes of it what it is. -/
structure Meets (slot : Slot) (desc : Descriptor) : Prop where
  agrees : slot.agrees desc = true
  merge : slot.merge desc = slot

theorem Meets.validate (meets : slot.Meets desc) : slot.validate desc = .accepted := by
  rw [validate_eq, meets.agrees, Bool.or_true]
  rfl

/-- Two properties that are equal but for how their numbers are written. -/
structure Same (slot other : Slot) : Prop where
  flags : slot.flags = other.flags
  value : slot.value.sameValue other.value = true
  getter : slot.getter.sameValue other.getter = true
  setter : slot.setter.sameValue other.setter = true

/-- A descriptor that was merged finds everything in its place. -/
theorem merge_merge (slot : Slot) (desc : Descriptor) :
    (slot.merge desc).merge desc = slot.merge desc := by
  unfold merge
  simp only
  by_cases generic : desc.attributes.isGeneric = true
  · rw [if_pos generic, if_pos generic]
    grind
  · rw [if_neg generic, if_neg generic]
    by_cases data : desc.attributes.data = true
    · rw [if_pos data, if_pos data]
      unfold asData
      grind
    · rw [if_neg data, if_neg data]
      unfold asAccessor
      grind

theorem meets_toDescriptor (type : slot.flags.data = !slot.flags.accessor) :
    slot.Meets slot.toDescriptor := by
  have same := Value.sameValue_refl
  obtain ⟨value, getter, setter, ⟨writable, enumerable, configurable, data, accessor⟩⟩ := slot
  cases accessor with
  | true =>
    cases type
    constructor
    · simp [agrees, toDescriptor, Descriptor.accessor, same]
    · simp [merge, toDescriptor, Descriptor.accessor, asAccessor, Attributes.isGeneric]
  | false =>
    cases type
    constructor
    · simp [agrees, toDescriptor, Descriptor.data, same]
    · simp [merge, toDescriptor, Descriptor.data, asData, Attributes.isGeneric]

/-- What is shown of a property that is made from what another one shows is the same again. -/
theorem toDescriptor_ofDescriptor {P : Value → Prop} (proper : slot.Proper P) :
    (ofDescriptor slot.toDescriptor).toDescriptor = slot.toDescriptor := by
  cases kind : slot.flags.accessor with
  | false => rw [ofDescriptor_toDescriptor_data proper kind]
  | true =>
    rw [ofDescriptor_toDescriptor_accessor proper kind]
    simp [toDescriptor, kind, Descriptor.accessor]

section Single

variable (single : (desc.attributes.data && desc.attributes.accessor) = false)
include single

theorem meets_merge (slot : Slot) : (slot.merge desc).Meets desc := by
  refine ⟨?_, merge_merge slot desc⟩
  have same := Value.sameValue_refl
  unfold merge
  simp only
  by_cases generic : desc.attributes.isGeneric = true
  · rw [if_pos generic]
    unfold agrees
    grind
  · rw [if_neg generic]
    unfold Attributes.isGeneric at generic
    by_cases data : desc.attributes.data = true
    · rw [if_pos data]
      unfold asData agrees
      grind
    · rw [if_neg data]
      unfold asAccessor agrees
      grind

theorem meets_ofDescriptor : (ofDescriptor desc).Meets desc := by
  have same := Value.sameValue_refl
  unfold ofDescriptor Descriptor.isEnumerable Descriptor.isConfigurable Descriptor.isAccessor
    Descriptor.isData Descriptor.isWritable
  by_cases accessor : desc.attributes.accessor = true
  · rw [if_pos accessor]
    constructor
    · unfold agrees Attributes.isGeneric
      grind
    · unfold merge asAccessor Attributes.isGeneric
      grind
  · rw [if_neg accessor]
    constructor
    · unfold agrees Attributes.isGeneric
      grind
    · unfold merge asData Attributes.isGeneric
      grind

/-- An accepted definition makes a property that has what was asked for. -/
theorem meets_of_define {current : Option Slot} {extensible : Bool}
    (accepted : (Slot.define current desc extensible).1 = .accepted) :
    ∃ slot, (Slot.define current desc extensible).2 = some slot ∧ slot.Meets desc := by
  unfold Slot.define at accepted ⊢
  cases current with
  | none =>
    cases extensible with
    | true => exact ⟨_, rfl, meets_ofDescriptor single⟩
    | false => cases accepted
  | some slot =>
    cases verdict : slot.validate desc with
    | accepted => exact ⟨_, by simp only [verdict], meets_merge single slot⟩
    | rejected reason =>
      simp only [verdict] at accepted
      cases accepted

/-- A descriptor agrees with a property if and only if it makes the same property of it. -/
theorem agrees_iff_same (type : slot.flags.data = !slot.flags.accessor) :
    slot.agrees desc = true ↔ (slot.merge desc).Same slot := by
  have same := Value.sameValue_refl
  obtain ⟨value, getter, setter, ⟨writable, enumerable, configurable, data, accessor⟩⟩ := slot
  unfold merge agrees
  simp only at type ⊢
  by_cases generic : desc.attributes.isGeneric = true
  · rw [if_pos generic]
    constructor
    · intro agreed
      constructor <;> grind
    · rintro ⟨flags, value, getter, setter⟩
      grind
  · rw [if_neg generic]
    unfold Attributes.isGeneric at generic ⊢
    by_cases given : desc.attributes.data = true
    · rw [if_pos given]
      unfold asData
      constructor
      · intro agreed
        constructor <;> grind
      · rintro ⟨flags, value, getter, setter⟩
        grind
    · rw [if_neg given]
      unfold asAccessor
      constructor
      · intro agreed
        constructor <;> grind
      · rintro ⟨flags, value, getter, setter⟩
        grind

end Single

end Slot

/-- A new element of an array meets the descriptor that it was made from, mistaken or not. -/
theorem Elements.View.meets_newSlot {desc : Descriptor}
    (single : (desc.attributes.data && desc.attributes.accessor) = false) :
    (newSlot desc).Meets desc := by
  have same := Value.sameValue_refl
  unfold newSlot
  by_cases plain : desc.isPlain = true
  · rw [if_pos plain]
    unfold Descriptor.isPlain Descriptor.isEnumerable Descriptor.isConfigurable
      Descriptor.isAccessor Descriptor.isData Descriptor.isWritable at plain
    unfold freshValue Descriptor.lacksValue Descriptor.isData Slot.plain Flags.plain
    constructor
    · unfold Slot.agrees Attributes.isGeneric
      grind
    · unfold Slot.merge Slot.asData Attributes.isGeneric
      grind
  · rw [if_neg plain]
    exact Slot.meets_ofDescriptor single

end HiddenClass
