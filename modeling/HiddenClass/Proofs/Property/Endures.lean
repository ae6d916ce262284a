import HiddenClass.Property.Slot

/-!
What a property that is not configurable keeps for good. Any descriptor that such a property accepts
leaves it of the same type and as enumerable as it was; its functions stay the same, and so does its
value once it is read-only.
-/

namespace HiddenClass

namespace Value

theorem sameValue_refl (value : Value) : value.sameValue value = true := by
  unfold sameValue
  split <;> exact decide_eq_true rfl

theorem sameValue_trans {first second third : Value} (one : first.sameValue second = true)
    (two : second.sameValue third = true) : first.sameValue third = true := by
  unfold sameValue at one two ⊢
  by_cases numbers : (first.isNumber && second.isNumber) = true
  · rw [if_pos numbers, decide_eq_true_eq] at one
    rw [Bool.and_eq_true] at numbers
    by_cases third : (second.isNumber && third.isNumber) = true
    · rw [if_pos third, decide_eq_true_eq] at two
      rw [Bool.and_eq_true] at third
      rw [if_pos (Bool.and_eq_true_iff.mpr ⟨numbers.1, third.2⟩), one, two]
      exact decide_eq_true rfl
    · rw [if_neg third, decide_eq_true_eq] at two
      rw [← two, numbers.2] at third
      exact absurd rfl third
  · rw [if_neg numbers, decide_eq_true_eq] at one
    rw [one]
    exact two

end Value

namespace Slot

variable {slot before between after : Slot} {desc : Descriptor}

/-- The later of two properties has what the earlier one could not lose. -/
structure Endures (before after : Slot) : Prop where
  configurable : after.flags.configurable = false
  enumerable : after.flags.enumerable = before.flags.enumerable
  data : after.flags.data = before.flags.data
  accessor : after.flags.accessor = before.flags.accessor
  functions : before.flags.accessor = true →
    after.getter.sameValue before.getter = true ∧ after.setter.sameValue before.setter = true
  writable : after.flags.writable = true → before.flags.writable = true
  value : before.flags.data = true → before.flags.writable = false →
    after.value.sameValue before.value = true

theorem Endures.refl (fixed : slot.flags.configurable = false) : slot.Endures slot where
  configurable := fixed
  enumerable := rfl
  data := rfl
  accessor := rfl
  functions := fun _ => ⟨Value.sameValue_refl _, Value.sameValue_refl _⟩
  writable := id
  value := fun _ _ => Value.sameValue_refl _

theorem Endures.trans (first : before.Endures between) (second : between.Endures after) :
    before.Endures after where
  configurable := second.configurable
  enumerable := second.enumerable.trans first.enumerable
  data := second.data.trans first.data
  accessor := second.accessor.trans first.accessor
  functions := fun accessor => by
    obtain ⟨getter, setter⟩ := first.functions accessor
    obtain ⟨laterGetter, laterSetter⟩ := second.functions (first.accessor.trans accessor)
    exact ⟨Value.sameValue_trans laterGetter getter, Value.sameValue_trans laterSetter setter⟩
  writable := fun writable => first.writable (second.writable writable)
  value := fun data readOnly => by
    have stays : between.flags.writable = false := by
      rw [← Bool.not_eq_true]
      intro writable
      rw [first.writable writable] at readOnly
      cases readOnly
    exact Value.sameValue_trans (second.value (first.data.trans data) stays)
      (first.value data readOnly)

/-- What a property that is not configurable lets a descriptor say. -/
structure Bears (slot : Slot) (desc : Descriptor) : Prop where
  configurable : desc.attributes.configurableAbsent = false → desc.attributes.configurable = false
  enumerable : desc.attributes.enumerableAbsent = false →
    desc.attributes.enumerable = slot.flags.enumerable
  data : desc.attributes.data = true → slot.flags.data = true ∧
    (slot.flags.writable = false →
      (desc.attributes.writableAbsent = false → desc.attributes.writable = false) ∧
      (desc.attributes.valueAbsent = false → desc.value.sameValue slot.value = true))
  accessor : desc.attributes.data = false → desc.attributes.accessor = true →
    slot.flags.data = false ∧
      (desc.attributes.getterAbsent = false → desc.getter.sameValue slot.getter = true) ∧
      (desc.attributes.setterAbsent = false → desc.setter.sameValue slot.setter = true)

section Fixed

variable (type : slot.flags.data = !slot.flags.accessor) (fixed : slot.flags.configurable = false)
include type fixed

theorem bears_of_agrees (agreed : slot.agrees desc = true) : slot.Bears desc := by
  unfold agrees Attributes.isGeneric at agreed
  constructor <;> grind

/-- A descriptor is accepted because it changes nothing, or else by the checks field for field. -/
theorem bears_of_accepted (accepted : slot.validate desc = .accepted) : slot.Bears desc := by
  by_cases agreed : slot.agrees desc = true
  · exact bears_of_agrees type fixed agreed
  · unfold validate Descriptor.isAbsent Descriptor.isGeneric Attributes.isGeneric at accepted
    constructor <;> grind

theorem endures_merge (accepted : slot.validate desc = .accepted) :
    slot.Endures (slot.merge desc) := by
  have bears := bears_of_accepted type fixed accepted
  have configurable := bears.configurable
  have enumerable := bears.enumerable
  have same := Value.sameValue_refl
  unfold merge
  simp only
  by_cases generic : desc.attributes.isGeneric = true
  · rw [if_pos generic]
    constructor <;> grind
  · rw [if_neg generic]
    unfold Attributes.isGeneric at generic
    by_cases data : desc.attributes.data = true
    · rw [if_pos data]
      have own := bears.data data
      unfold asData
      constructor <;> grind
    · rw [if_neg data]
      have own := bears.accessor (Bool.eq_false_iff.mpr data) (by grind)
      unfold asAccessor
      constructor <;> grind

end Fixed

end Slot

/-- What a program can see of `Slot.Endures` in the descriptors that are answered. -/
structure Descriptor.Endures (before after : Descriptor) : Prop where
  configurable : after.isConfigurable = false
  enumerable : after.isEnumerable = before.isEnumerable
  /-- A data property stays one, and an accessor does. -/
  data : after.isData = before.isData
  accessor : after.isAccessor = before.isAccessor
  functions : before.isAccessor = true →
    after.getter.sameValue before.getter = true ∧ after.setter.sameValue before.setter = true
  /-- No way leads from read-only back to writable. -/
  writable : after.isWritable = true → before.isWritable = true
  value : before.isData = true → before.isWritable = false →
    after.value.sameValue before.value = true

theorem Slot.Endures.toDescriptor {before after : Slot}
    (type : before.flags.data = !before.flags.accessor) (endures : before.Endures after) :
    before.toDescriptor.Endures after.toDescriptor := by
  have accessor := endures.accessor
  unfold Slot.toDescriptor
  rw [accessor]
  cases kind : before.flags.accessor with
  | true =>
    exact {
      configurable := endures.configurable
      enumerable := endures.enumerable
      data := rfl
      accessor := rfl
      functions := fun _ => endures.functions kind
      writable := fun writable => absurd writable Bool.false_ne_true
      value := fun data => absurd data Bool.false_ne_true }
  | false =>
    rw [kind] at type
    exact {
      configurable := endures.configurable
      enumerable := endures.enumerable
      data := rfl
      accessor := rfl
      functions := fun accessor => absurd accessor Bool.false_ne_true
      writable := endures.writable
      value := fun _ => endures.value type }

end HiddenClass
