import HiddenClass.Proofs.Object

/-!
What the properties of an object hold. A predicate on values that is true of every value handed in
is true of every value held, and a property never holds anything beside its type.
-/

namespace HiddenClass

/-- The values that a descriptor carries satisfy a predicate. -/
structure Descriptor.All (P : Value → Prop) (desc : Descriptor) : Prop where
  value : P desc.value
  getter : P desc.getter
  setter : P desc.setter

/-- A property of one type, without anything of the other, and with values of a kind. -/
structure Slot.Proper (P : Value → Prop) (slot : Slot) : Prop where
  value : P slot.value
  getter : P slot.getter
  setter : P slot.setter
  type : slot.flags.data = !slot.flags.accessor
  data : slot.flags.accessor = false → slot.getter = .undefined ∧ slot.setter = .undefined
  accessor : slot.flags.accessor = true → slot.value = .undefined

variable {P Q : Value → Prop} {desc : Descriptor}

namespace Slot

variable {slot : Slot}

theorem Proper.mono (proper : slot.Proper P) (weaker : ∀ value, P value → Q value) :
    slot.Proper Q :=
  ⟨weaker _ proper.value, weaker _ proper.getter, weaker _ proper.setter, proper.type, proper.data,
    proper.accessor⟩

theorem proper_plain (undefined : P .undefined) {value : Value} (allowed : P value) :
    (Slot.plain value).Proper P where
  value := allowed
  getter := undefined
  setter := undefined
  type := rfl
  data := fun _ => ⟨rfl, rfl⟩
  accessor := fun accessor => absurd accessor Bool.false_ne_true

theorem proper_ofDescriptor (undefined : P .undefined) (given : desc.All P) :
    (Slot.ofDescriptor desc).Proper P := by
  unfold ofDescriptor
  by_cases accessor : desc.isAccessor = true
  · simp only [if_pos accessor]
    exact ⟨undefined, given.getter, given.setter, rfl, fun data => absurd data.symm Bool.false_ne_true,
      fun _ => rfl⟩
  · simp only [if_neg accessor]
    exact ⟨given.value, undefined, undefined, rfl, fun _ => ⟨rfl, rfl⟩,
      fun accessor => absurd accessor Bool.false_ne_true⟩

theorem proper_asData (undefined : P .undefined) (proper : slot.Proper P) :
    slot.asData.Proper P ∧ slot.asData.flags.accessor = false := by
  unfold asData
  by_cases accessor : slot.flags.accessor = true
  · rw [if_pos accessor]
    exact ⟨⟨undefined, undefined, undefined, rfl, fun _ => ⟨rfl, rfl⟩,
      fun accessor => absurd accessor Bool.false_ne_true⟩, rfl⟩
  · rw [if_neg accessor]
    have none : slot.flags.accessor = false := Bool.eq_false_iff.mpr accessor
    refine ⟨⟨proper.value, proper.getter, proper.setter, ?_, proper.data, proper.accessor⟩, none⟩
    simp only [none, Bool.not_false]

theorem proper_asAccessor (undefined : P .undefined) (proper : slot.Proper P) :
    slot.asAccessor.Proper P ∧ slot.asAccessor.flags.accessor = true := by
  have type := proper.type
  unfold asAccessor
  by_cases data : slot.flags.data = true
  · rw [if_pos data]
    exact ⟨⟨undefined, proper.getter, proper.setter, rfl,
      fun none => absurd none.symm Bool.false_ne_true, fun _ => rfl⟩, rfl⟩
  · rw [if_neg data]
    have accessor : slot.flags.accessor = true := by
      cases known : slot.flags.accessor with
      | true => rfl
      | false =>
        rw [known, Bool.not_false] at type
        exact absurd type data
    refine ⟨⟨proper.value, proper.getter, proper.setter, ?_,
      fun none => absurd none.symm Bool.false_ne_true, fun _ => proper.accessor accessor⟩, rfl⟩
    rw [accessor] at type
    exact type

/-- Merging keeps a property proper, whatever bits the descriptor has. -/
theorem proper_merge (undefined : P .undefined) (proper : slot.Proper P) (given : desc.All P) :
    (slot.merge desc).Proper P := by
  have adjusted : ∀ configurable enumerable : Bool,
      ({ slot with flags := { slot.flags with configurable, enumerable } } : Slot).Proper P :=
    fun _ _ => ⟨proper.value, proper.getter, proper.setter, proper.type, proper.data,
      proper.accessor⟩
  unfold merge
  simp only
  generalize (if desc.attributes.configurableAbsent = true then slot.flags.configurable
    else desc.attributes.configurable) = configurable
  generalize (if desc.attributes.enumerableAbsent = true then slot.flags.enumerable
    else desc.attributes.enumerable) = enumerable
  have shared := adjusted configurable enumerable
  generalize ({ slot with flags := { slot.flags with configurable, enumerable } } : Slot) = base
    at shared ⊢
  by_cases generic : desc.attributes.isGeneric = true
  · rw [if_pos generic]
    exact shared
  · rw [if_neg generic]
    by_cases data : desc.attributes.data = true
    · rw [if_pos data]
      obtain ⟨target, none⟩ := proper_asData undefined shared
      have value : P (if desc.attributes.valueAbsent = true then base.asData.value else desc.value) := by
        split
        · exact target.value
        · exact given.value
      exact ⟨value, target.getter, target.setter, target.type, target.data,
        fun accessor => absurd (none.symm.trans accessor) Bool.false_ne_true⟩
    · rw [if_neg data]
      obtain ⟨target, accessor⟩ := proper_asAccessor undefined shared
      have getter : P (if desc.attributes.getterAbsent = true then base.asAccessor.getter
          else desc.getter) := by
        split
        · exact target.getter
        · exact given.getter
      have setter : P (if desc.attributes.setterAbsent = true then base.asAccessor.setter
          else desc.setter) := by
        split
        · exact target.setter
        · exact given.setter
      exact ⟨target.value, getter, setter, target.type,
        fun none => absurd (none.symm.trans accessor) Bool.false_ne_true, target.accessor⟩

end Slot

namespace Record

def Proper (P : Value → Prop) (record : Record) : Prop :=
  ∀ key slot, record.find? key = some slot → slot.Proper P

variable {record : Record}

theorem proper_define (undefined : P .undefined) (sound : record.Sound) (proper : record.Proper P)
    (given : desc.All P) (key : Key) (extensible : Bool) :
    (record.define key desc extensible).2.Proper P := by
  intro other slot found
  rw [(sound.define_eq key desc extensible).2] at found
  by_cases same : other = key
  · rw [if_pos same] at found
    cases present : record.find? key with
    | none =>
      rw [present, Slot.define] at found
      by_cases allowed : extensible = true
      · rw [if_pos allowed] at found
        exact Option.some.inj found ▸ Slot.proper_ofDescriptor undefined given
      · rw [if_neg allowed] at found
        cases found
    | some current =>
      have old := proper key current present
      rw [present, Slot.define] at found
      cases verdict : current.validate desc with
      | accepted =>
        rw [verdict] at found
        exact Option.some.inj found ▸ Slot.proper_merge undefined old given
      | rejected reason =>
        rw [verdict] at found
        exact Option.some.inj found ▸ old
  · rw [if_neg same] at found
    exact proper other slot found

theorem proper_delete (sound : record.Sound) (proper : record.Proper P) (key : Key) :
    (record.delete key).2.Proper P := by
  intro other slot found
  rw [(sound.delete_eq key).2] at found
  by_cases same : other = key
  · rw [if_pos same] at found
    cases present : record.find? key with
    | none =>
      rw [present, Slot.delete] at found
      cases found
    | some current =>
      rw [present, Slot.delete] at found
      by_cases deletable : current.flags.configurable = true
      · rw [if_pos deletable] at found
        cases found
      · rw [if_neg deletable] at found
        exact Option.some.inj found ▸ proper key current present
  · rw [if_neg same] at found
    exact proper other slot found

end Record

namespace Elements.View

/-- Every element satisfies the predicate, and every other property holds what does. -/
structure Proper (P : Value → Prop) (view : View) : Prop where
  element : ∀ index value, view.element index = some value → P value
  record : view.record.Proper P

variable {view : View} {index bound : Nat} {value : Value}

theorem proper_ofLength (length : Nat) : (ofLength length).Proper P :=
  ⟨fun _ _ found => absurd found.symm (Option.some_ne_none _),
    fun _ _ found => absurd found.symm (Option.some_ne_none _)⟩

namespace Proper

variable (proper : view.Proper P)
include proper

theorem drop (index : Nat) : (view.drop index).Proper P := by
  refine ⟨fun other value found => ?_, proper.record⟩
  rw [element_drop] at found
  split at found
  · cases found
  · exact proper.element other value found

theorem put (bound index : Nat) (allowed : P value) : (view.put bound index value).Proper P := by
  refine ⟨fun other held found => ?_, proper.record⟩
  rw [element_put] at found
  split at found
  · split at found
    · cases found
    · exact Option.some.inj found ▸ allowed
  · exact proper.element other held found

theorem peek (found : view.peek index = some value) : P value :=
  proper.element index value (Option.filter_eq_some_iff.mp found).1

theorem plainValue (undefined : P .undefined) (given : desc.All P)
    (found : view.plainValue index desc = some value) : P value := by
  unfold View.plainValue at found
  cases held : view.peek index with
  | some current =>
    rw [held] at found
    simp only at found
    split at found
    · have merged := Slot.proper_merge undefined
        (Slot.proper_plain undefined (proper.peek held)) given
      exact Option.some.inj found ▸ merged.value
    · cases found
  | none =>
    rw [held] at found
    have fresh : P (if desc.lacksValue = true then .undefined else desc.value) := by
      split
      · exact undefined
      · exact given.value
    simp only at found
    split at found
    · cases found
    · split at found
      · exact Option.some.inj found ▸ fresh
      · split at found
        · cases found
        · exact Option.some.inj found ▸ fresh

theorem moveToStore (undefined : P .undefined) (sound : view.Sound) (index : Nat) :
    (view.moveToStore index).Proper P := by
  unfold View.moveToStore
  cases held : view.element index with
  | none => exact proper
  | some current =>
    have allowed := proper.element index current held
    refine ⟨(proper.drop index).element, ?_⟩
    exact Record.proper_define undefined sound.record proper.record ⟨allowed, undefined, undefined⟩
      (.index index) true

theorem defineStored (undefined : P .undefined) (sound : view.Sound) (given : desc.All P)
    (index : Nat) (extensible : Bool) :
    (view.defineStored index desc extensible).2.Proper P := by
  have moved := proper.moveToStore undefined sound index
  have record := Record.proper_define undefined (sound.moveToStore index).record moved.record given
    (.index index) extensible
  unfold View.defineStored
  simp only
  split
  · exact ⟨moved.element, record⟩
  · exact ⟨moved.element, record⟩

theorem define (undefined : P .undefined) (sound : view.Sound) (given : desc.All P)
    (bound index : Nat) (extensible : Bool) :
    (view.define bound index desc extensible).2.Proper P := by
  have defined : (view.defineElement bound index desc extensible).2.Proper P := by
    unfold View.defineElement
    cases plain : view.plainValue index desc with
    | none => exact proper.defineStored undefined sound given index extensible
    | some value =>
      simp only
      split
      · exact proper
      · exact proper.put bound index (proper.plainValue undefined given plain)
  unfold View.define
  split
  · exact proper
  · simp only
    split
    · unfold View.reach
      split
      · exact ⟨defined.element, defined.record⟩
      · exact defined
    · exact defined

theorem delete (sound : view.Sound) (index : Nat) : (view.delete index).2.Proper P := by
  unfold View.delete
  split
  · exact proper.drop index
  · exact ⟨proper.element, Record.proper_delete sound.record proper.record _⟩

theorem applyLength (desc : Descriptor) : (view.applyLength desc).2.Proper P := by
  unfold View.applyLength
  split
  · exact ⟨proper.element, proper.record⟩
  · exact proper

theorem lowered (length : Nat) (attributes : Attributes) :
    (view.lowered length attributes).Proper P := ⟨proper.element, proper.record⟩

theorem settle (length : Nat) (writable : Bool) : (view.settle length writable).Proper P := by
  refine ⟨fun index value found => ?_, proper.record⟩
  change (if index < length then view.element index else none) = some value at found
  split at found
  · exact proper.element index value found
  · cases found

end Proper

theorem Proper.deleteEach (proper : view.Proper P) (sound : view.Sound) (indices : List Nat) :
    (view.deleteEach indices).2.Proper P := by
  induction indices generalizing view with
  | nil => exact proper
  | cons index rest ih =>
    have deleted := proper.delete sound index
    unfold View.deleteEach
    simp only
    split
    · exact ih deleted (sound.delete index)
    · exact deleted

theorem Proper.shrink (proper : view.Proper P) (sound : view.Sound) (doomed : List Nat)
    (length : Nat) (writable : Bool) : (view.shrink doomed length writable).2.Proper P := by
  have cleared := proper.deleteEach sound doomed
  unfold View.shrink
  simp only
  split
  · exact cleared.settle length writable
  · split
    · exact cleared.settle _ writable
    · exact cleared

theorem Proper.defineLength (proper : view.Proper P) (sound : view.Sound) (doomed : List Nat)
    (desc : Descriptor) : (view.defineLength doomed desc).2.Proper P := by
  unfold View.defineLength
  split
  · exact proper.applyLength desc
  · cases lengthOf? desc.value with
    | none => exact proper
    | some length =>
      rcases view.assignLength_cases length desc.attributes with
        ⟨_, same⟩ | ⟨_, same⟩ | ⟨_, _, _, same⟩
      · simp only [same]
        exact proper.applyLength _
      · simp only [same]
        exact proper
      · simp only [same]
        exact (proper.lowered length desc.attributes).shrink (sound.lowered length desc.attributes)
          doomed length _

end Elements.View

namespace Object.Content

/-- Every property holds values that satisfy the predicate. -/
def Proper (P : Value → Prop) : Content → Prop
  | .ordinary record => record.Proper P
  | .array view => view.Proper P

variable {content : Content}

theorem Proper.mono (proper : content.Proper P) (weaker : ∀ value, P value → Q value) :
    content.Proper Q := by
  cases content with
  | ordinary record => exact fun key slot found => (proper key slot found).mono weaker
  | array view =>
    exact ⟨fun index value found => weaker value (proper.element index value found),
      fun key slot found => (proper.record key slot found).mono weaker⟩

theorem proper_define (undefined : P .undefined) (sound : content.Sound) (proper : content.Proper P)
    (given : desc.All P) (bound : Nat) (doomed : List Nat) (key : Key) (extensible : Bool) :
    (content.define bound doomed key desc extensible).2.Proper P := by
  cases content with
  | ordinary record => exact Record.proper_define undefined sound proper given key extensible
  | array view =>
    unfold Content.define
    cases key.role with
    | element index =>
      exact Elements.View.Proper.define proper undefined sound given bound index extensible
    | length => exact Elements.View.Proper.defineLength proper sound doomed desc
    | name =>
      exact ⟨proper.element,
        Record.proper_define undefined sound.record proper.record given key extensible⟩

theorem proper_delete (sound : content.Sound) (proper : content.Proper P) (key : Key) :
    (content.delete key).2.Proper P := by
  cases content with
  | ordinary record => exact Record.proper_delete sound proper key
  | array view =>
    unfold Content.delete
    cases key.role with
    | element index => exact Elements.View.Proper.delete proper sound index
    | length => exact proper
    | name => exact ⟨proper.element, Record.proper_delete sound.record proper.record key⟩

end Object.Content

end HiddenClass
