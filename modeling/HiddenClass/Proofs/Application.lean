import HiddenClass.Proofs.Creation
import HiddenClass.Proofs.Elements.Shortening
import HiddenClass.Proofs.Property.Endures

/-!
The validation and application of a descriptor against the rule that they implement. What a property
that is not configurable forbids is listed without an order of checks and without the early exits,
and what an accepted descriptor makes of a property is said field by field.
-/

namespace HiddenClass

namespace Descriptor

variable (desc : Descriptor)

@[grind]
def enumerable? : Option Bool :=
  if desc.attributes.enumerableAbsent then none else some desc.attributes.enumerable

@[grind]
def configurable? : Option Bool :=
  if desc.attributes.configurableAbsent then none else some desc.attributes.configurable

/-- Only a data descriptor says whether a property is writable, and what its value is. -/
@[grind]
def writable? : Option Bool :=
  if desc.attributes.data && !desc.attributes.writableAbsent then some desc.attributes.writable
  else none

@[grind]
def value? : Option Value :=
  if desc.attributes.data && !desc.attributes.valueAbsent then some desc.value else none

/-- Only an accessor descriptor has functions. -/
@[grind]
def getter? : Option Value :=
  if desc.attributes.accessor && !desc.attributes.getterAbsent then some desc.getter else none

@[grind]
def setter? : Option Value :=
  if desc.attributes.accessor && !desc.attributes.setterAbsent then some desc.setter else none

variable {desc}

theorem Built.type (built : desc.Built) :
    (desc.attributes.data && desc.attributes.accessor) = false := by
  cases built <;> rfl

end Descriptor

namespace Slot

/-- The properties that there can be: new ones, and what accepted descriptors make of them. -/
inductive Arises : Slot → Prop where
  | made (desc : Descriptor) : Arises (.ofDescriptor desc)
  | plain (value : Value) : Arises (.plain value)
  | merged {slot : Slot} (before : slot.Arises) (desc : Descriptor)
    (accepted : slot.validate desc = .accepted) : Arises (slot.merge desc)

/-- A descriptor of the other type than the property has. -/
@[grind]
def switches (slot : Slot) (desc : Descriptor) : Bool :=
  (desc.attributes.data || desc.attributes.accessor) && desc.attributes.data != slot.flags.data

/-- What a property that is not configurable does not let a descriptor ask for. -/
inductive Forbids (slot : Slot) (desc : Descriptor) : Prop where
  | configurable (asked : desc.configurable? = some true)
  | enumerable {enumerable : Bool} (asked : desc.enumerable? = some enumerable)
    (differs : enumerable ≠ slot.flags.enumerable)
  | type (other : slot.switches desc = true)
  | writable (data : slot.flags.data = true) (readOnly : slot.flags.writable = false)
    (asked : desc.writable? = some true)
  | value {value : Value} (data : slot.flags.data = true) (readOnly : slot.flags.writable = false)
    (asked : desc.value? = some value) (differs : value.sameValue slot.value = false)
  | getter {getter : Value} (accessor : slot.flags.accessor = true)
    (asked : desc.getter? = some getter) (differs : getter.sameValue slot.getter = false)
  | setter {setter : Value} (accessor : slot.flags.accessor = true)
    (asked : desc.setter? = some setter) (differs : setter.sameValue slot.setter = false)

/-- What a descriptor makes of a property: the supplied fields are taken over, and the others kept
unless they belong to a type that the property had and has no more. -/
structure Applied (slot : Slot) (desc : Descriptor) (result : Slot) : Prop where
  configurable : result.flags.configurable = desc.configurable?.getD slot.flags.configurable
  enumerable : result.flags.enumerable = desc.enumerable?.getD slot.flags.enumerable
  writable : result.flags.writable =
    desc.writable?.getD (if slot.switches desc then false else slot.flags.writable)
  value : result.value = desc.value?.getD (if slot.switches desc then .undefined else slot.value)
  getter : result.getter =
    desc.getter?.getD (if slot.switches desc then .undefined else slot.getter)
  setter : result.setter =
    desc.setter?.getD (if slot.switches desc then .undefined else slot.setter)
  data : result.flags.data = if slot.switches desc then desc.attributes.data else slot.flags.data
  /-- There is exactly one type. -/
  accessor : result.flags.accessor = !result.flags.data

/-- The checks of a validation, which an empty descriptor and one that changes nothing go through as
all others do. -/
def examine (slot : Slot) (desc : Descriptor) : Verdict :=
  let given := desc.attributes
  let flags := slot.flags
  if flags.configurable then .accepted
  else if given.configurable then .rejected .configurableChange
  else if !given.enumerableAbsent && flags.enumerable != given.enumerable then
    .rejected .enumerableChange
  else if given.isGeneric then .accepted
  else if flags.data != given.data then .rejected .typeChange
  else if flags.data then
    if flags.writable then .accepted
    else if given.writable then .rejected .writableChange
    else if !given.valueAbsent && !desc.value.sameValue slot.value then .rejected .valueChange
    else .accepted
  else if !given.setterAbsent && !desc.setter.sameValue slot.setter
      || !given.getterAbsent && !desc.getter.sameValue slot.getter then .rejected .accessorChange
  else .accepted

theorem validate_eq (slot : Slot) (desc : Descriptor) :
    slot.validate desc =
      if desc.isAbsent || slot.agrees desc then .accepted else slot.examine desc := rfl

variable {slot : Slot} {desc : Descriptor}

theorem Arises.proper (arises : slot.Arises) : slot.Proper fun _ => True := by
  induction arises with
  | made desc => exact proper_ofDescriptor trivial ⟨trivial, trivial, trivial⟩
  | plain value => exact proper_plain trivial trivial
  | merged _ desc _ ih => exact proper_merge trivial ih ⟨trivial, trivial, trivial⟩

/-- A configurable property passes every check. -/
theorem examine_of_configurable (configurable : slot.flags.configurable = true)
    (desc : Descriptor) : slot.examine desc = .accepted := if_pos configurable

section Checks

variable (type : slot.flags.data = !slot.flags.accessor)
  (single : (desc.attributes.data && desc.attributes.accessor) = false)
include type single

/-- Whatever a property does not bear, something that it forbids is the reason. -/
theorem forbids_of_not_bears (excess : ¬slot.Bears desc) : slot.Forbids desc := by
  by_contra allowed
  refine excess ⟨?_, ?_, ?_, ?_⟩
  · intro given
    by_contra configures
    exact allowed (.configurable (by grind))
  · intro given
    by_contra differs
    exact allowed (.enumerable (by grind) differs)
  · intro data
    have same : slot.flags.data = true := by
      by_contra other
      exact allowed (.type (by grind))
    refine ⟨same, fun readOnly => ⟨fun given => ?_, fun given => ?_⟩⟩
    · by_contra writable
      exact allowed (.writable same readOnly (by grind))
    · by_contra differs
      exact allowed (.value same readOnly (by grind) (Bool.eq_false_iff.mpr differs))
  · intro data accessor
    have same : slot.flags.data = false := by
      by_contra other
      exact allowed (.type (by grind))
    have own : slot.flags.accessor = true := by grind
    refine ⟨same, fun given => ?_, fun given => ?_⟩
    · by_contra differs
      exact allowed (.getter own (by grind) (Bool.eq_false_iff.mpr differs))
    · by_contra differs
      exact allowed (.setter own (by grind) (Bool.eq_false_iff.mpr differs))

theorem Bears.not_forbids (bears : slot.Bears desc) : ¬slot.Forbids desc := by
  have configurable := bears.configurable
  have enumerable := bears.enumerable
  have data := bears.data
  have accessor := bears.accessor
  intro forbidden
  cases forbidden <;> grind

end Checks

variable (single : (desc.attributes.data && desc.attributes.accessor) = false)
include single

/-- What a property bears passes every check. -/
theorem examine_of_bears (coherent : desc.attributes.Coherent) (bears : slot.Bears desc) :
    slot.examine desc = .accepted := by
  have configures := coherent.configurable
  have writes := coherent.writable
  have configurable := bears.configurable
  have enumerable := bears.enumerable
  have data := bears.data
  have accessor := bears.accessor
  unfold examine Attributes.isGeneric
  grind

theorem applied_merge {P : Value → Prop} (proper : slot.Proper P) :
    slot.Applied desc (slot.merge desc) := by
  -- A property has nothing of the other type already, so there is nothing to reset on that side.
  have type := proper.type
  have functions := proper.data
  have value := proper.accessor
  unfold merge
  simp only
  by_cases generic : desc.attributes.isGeneric = true
  · rw [if_pos generic]
    unfold Attributes.isGeneric at generic
    constructor <;> grind
  · rw [if_neg generic]
    unfold Attributes.isGeneric at generic
    by_cases data : desc.attributes.data = true
    · rw [if_pos data]
      unfold asData
      constructor <;> grind
    · rw [if_neg data]
      unfold asAccessor
      constructor <;> grind

omit single

/-- Leaving early makes no difference to the verdict: what is let through is what a property bears. -/
theorem validate_eq_examine (type : slot.flags.data = !slot.flags.accessor)
    (single : (desc.attributes.data && desc.attributes.accessor) = false)
    (coherent : desc.attributes.Coherent) : slot.validate desc = slot.examine desc := by
  by_cases exits : (desc.isAbsent || slot.agrees desc) = true
  · have accepted : slot.validate desc = .accepted := by rw [validate_eq, if_pos exits]
    rw [accepted]
    cases fixed : slot.flags.configurable with
    | true => exact (examine_of_configurable fixed desc).symm
    | false =>
      exact (examine_of_bears single coherent (bears_of_accepted type fixed accepted)).symm
  · rw [validate_eq, if_neg exits]

/-- A descriptor is rejected for what a property that is not configurable forbids and for nothing
else, its early exits change no verdict, and one that is accepted is applied field by field. -/
theorem validate_merge (arises : slot.Arises) (built : desc.Built)
    (coherent : desc.attributes.Coherent) :
    ((∃ reason, slot.validate desc = .rejected reason) ↔
        slot.flags.configurable = false ∧ slot.Forbids desc) ∧
      slot.validate desc = slot.examine desc ∧
      (slot.validate desc = .accepted → slot.Applied desc (slot.merge desc)) := by
  have proper := arises.proper
  have single := built.type
  have same := validate_eq_examine proper.type single coherent
  refine ⟨⟨fun ⟨reason, rejected⟩ => ?_, fun ⟨fixed, forbidden⟩ => ?_⟩, same,
    fun _ => applied_merge single proper⟩
  · have fixed : slot.flags.configurable = false := by
      rw [← Bool.not_eq_true]
      intro configurable
      rw [same, examine_of_configurable configurable] at rejected
      cases rejected
    refine ⟨fixed, forbids_of_not_bears proper.type single fun bears => ?_⟩
    rw [same, examine_of_bears single coherent bears] at rejected
    cases rejected
  · cases verdict : slot.validate desc with
    | accepted =>
      have bears := bears_of_accepted proper.type fixed verdict
      exact absurd forbidden (bears.not_forbids proper.type single)
    | rejected reason => exact ⟨reason, rfl⟩

/-- An accessor becomes a read-only value for good, which then rejects another value. -/
theorem validate_merge_accessor_fixed :
    let accessor := Slot.ofDescriptor
      (.accessor (some (.native ⟨"get"⟩)) none { enumerable := true, configurable := true })
    let fixing := Descriptor.data (.int 1) { writableAbsent := true, enumerableAbsent := true }
    let fixed := accessor.merge fixing
    let later := Descriptor.data (.int 2) .valueOnly
    accessor.Arises ∧ fixing.Built ∧ fixing.attributes.Coherent ∧
      accessor.validate fixing = .accepted ∧ accessor.Applied fixing fixed ∧
      fixed.Arises ∧ later.Built ∧ later.attributes.Coherent ∧ fixed.Forbids later ∧
      ∃ reason, fixed.validate later = .rejected reason := by
  intro accessor fixing fixed later
  have arises : accessor.Arises := .made _
  have coherent : fixing.attributes.Coherent := by constructor <;> decide
  have accepted : accessor.validate fixing = .accepted := by decide +kernel
  have applied := (validate_merge arises (.data ..) coherent).2.2 accepted
  have after : fixed.Arises := arises.merged fixing accepted
  have laterCoherent : later.attributes.Coherent := by constructor <;> decide
  have forbidden : fixed.Forbids later :=
    .value (by decide) (by decide) (rfl : later.value? = some (.int 2)) (by decide)
  exact ⟨arises, .data .., coherent, accepted, applied, after, .data .., laterCoherent, forbidden,
    (validate_merge after (.data ..) laterCoherent).1.mpr ⟨by decide, forbidden⟩⟩

/-! ### Properties made again from what they show -/

section Remade

variable {P : Value → Prop} (proper : slot.Proper P)
include proper

theorem ofDescriptor_toDescriptor_data (data : slot.flags.accessor = false) :
    ofDescriptor slot.toDescriptor = slot := by
  obtain ⟨getter, setter⟩ := proper.data data
  have type := proper.type
  obtain ⟨value, _, _, ⟨writable, enumerable, configurable, _, _⟩⟩ := slot
  cases data
  cases getter
  cases setter
  cases type
  simp [toDescriptor, ofDescriptor, Descriptor.data, Descriptor.isAccessor, Descriptor.isData,
    Descriptor.isWritable, Descriptor.isEnumerable, Descriptor.isConfigurable]

/-- Whether an accessor is writable is not shown. -/
theorem ofDescriptor_toDescriptor_accessor (accessor : slot.flags.accessor = true) :
    ofDescriptor slot.toDescriptor =
      { slot with flags := { slot.flags with writable := false } } := by
  have value := proper.accessor accessor
  have type := proper.type
  obtain ⟨_, getter, setter, ⟨writable, enumerable, configurable, _, _⟩⟩ := slot
  cases accessor
  cases value
  cases type
  simp [toDescriptor, ofDescriptor, Descriptor.accessor, Descriptor.isAccessor,
    Descriptor.isEnumerable, Descriptor.isConfigurable]

theorem validate_ofDescriptor (desc : Descriptor) :
    (ofDescriptor slot.toDescriptor).validate desc = slot.validate desc := by
  cases kind : slot.flags.accessor with
  | false => rw [ofDescriptor_toDescriptor_data proper kind]
  | true =>
    have type := proper.type
    rw [ofDescriptor_toDescriptor_accessor proper kind]
    unfold validate agrees
    grind

theorem merge_ofDescriptor (desc : Descriptor) :
    ((ofDescriptor slot.toDescriptor).merge desc).toDescriptor =
      (slot.merge desc).toDescriptor := by
  cases kind : slot.flags.accessor with
  | false => rw [ofDescriptor_toDescriptor_data proper kind]
  | true =>
    have type := proper.type
    rw [ofDescriptor_toDescriptor_accessor proper kind]
    unfold merge asData asAccessor toDescriptor Descriptor.accessor
    grind

end Remade

end Slot

end HiddenClass
