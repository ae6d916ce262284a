import HiddenClass.Proofs.Elements.Shortening
import HiddenClass.Proofs.Property.Meets

/-!
Definitions that are made once more. Where an array has what a definition asks for already, it is
accepted and leaves the array as it is, whichever container the property is kept in and whether the
array may be extended or not. An accepted definition leaves the array in such a state.
-/

namespace HiddenClass

variable {slot : Slot} {desc : Descriptor}

/-- A property that has what is asked for is written over by itself. -/
theorem Record.define_of_meets {record : Record} {key : Key} (found : record.find? key = some slot)
    (meets : slot.Meets desc) (extensible : Bool) :
    record.define key desc extensible = (.accepted, record) := by
  obtain ⟨offset, located, rfl⟩ := Option.map_eq_some_iff.mp found
  unfold define set
  simp only [located, meets.validate, meets.merge, Function.update_eq_self]

/-- What an accepted definition leaves in a record has what was asked for. -/
theorem Record.Sound.meets_of_define {record : Record} {key : Key} (sound : record.Sound)
    (single : (desc.attributes.data && desc.attributes.accessor) = false) {extensible : Bool}
    (accepted : (record.define key desc extensible).1 = .accepted) :
    ∃ slot, (record.define key desc extensible).2.find? key = some slot ∧ slot.Meets desc := by
  obtain ⟨verdict, after⟩ := sound.define_eq key desc extensible
  rw [after, if_pos rfl]
  exact Slot.meets_of_define single (verdict.symm.trans accepted)

namespace Elements.View

variable {view : View} {index bound length : Nat} {value : Value} {doomed : List Nat}
  {extensible : Bool}

theorem put_self (peeked : view.peek index = some value) (bound : Nat) :
    view.put bound index value = view := by
  obtain ⟨held, visible⟩ := Option.filter_eq_some_iff.mp peeked
  rw [Bool.not_eq_true'] at visible
  unfold put
  rw [visible, Bool.false_and, if_neg Bool.false_ne_true, ← held, Function.update_eq_self]

/-- An element stays where it is, and a stored property does. -/
theorem defineElement_of_meets (sound : view.Sound) (small : index < Key.indexBound)
    (found : view.visible index = some slot) (meets : slot.Meets desc) (bound : Nat)
    (extensible : Bool) : view.defineElement bound index desc extensible = (.accepted, view) := by
  unfold View.defineElement
  cases peeked : view.peek index with
  | some current =>
    rw [visible_of_peek peeked] at found
    cases found
    have chosen : view.plainValue index desc = some current := by
      unfold View.plainValue
      simp only [peeked, meets.merge]
      exact if_pos rfl
    simp only [chosen, Option.isNone_some, Bool.false_and, Bool.false_eq_true, if_false]
    rw [put_self peeked]
  | none =>
    rw [visible_of_absent peeked] at found
    have sparse : view.dense = false := by
      rw [← Bool.not_eq_true]
      intro dense
      rw [sound.dense dense index small] at found
      cases found
    have empty : view.element index = none := by
      rw [← Option.not_isSome_iff_eq_none]
      intro held
      rw [sound.apart index held] at found
      cases found
    have chosen : view.plainValue index desc = none := by
      unfold View.plainValue
      simp [peeked, sparse, found]
    unfold View.defineStored
    simp only [chosen, moveToStore_of_empty empty, Record.define_of_meets found meets, ← sparse]

theorem define_of_meets (sound : view.Sound) (small : index < Key.indexBound)
    (inside : index < view.length) (found : view.visible index = some slot)
    (meets : slot.Meets desc) (bound : Nat) (extensible : Bool) :
    view.define bound index desc extensible = (.accepted, view) := by
  have within : ¬(view.length ≤ index && !view.lengthWritable) = true := by
    simp [Nat.not_le.mpr inside]
  unfold View.define
  simp only [if_neg within, defineElement_of_meets sound small found meets]
  rw [View.reach, if_neg (Nat.not_le.mpr inside)]

/-- Where no hole is in its place, all that an array has is found. -/
theorem visible_eq_property (whole : view.element index ≠ some .hole) :
    view.visible index = view.property index := by
  cases held : view.element index with
  | some value =>
    have solid : value ≠ .hole := fun hole => whole (held.trans (congrArg some hole))
    rw [visible_of_peek (peek_of_held held (Value.isHole_eq_false solid)), property_of_element held]
  | none => rw [visible_of_absent (peek_of_empty held), property_of_stored held]

/-- Where there is nothing, an array that may not be extended accepts no definition. -/
theorem defineElement_closed (absent : view.owns index = false) (bound : Nat) (desc : Descriptor) :
    (view.defineElement bound index desc false).1 = .rejected .notExtensible := by
  obtain ⟨empty, unstored⟩ := not_owns_iff.mp absent
  have peeked := peek_of_empty empty
  have chosen := plainValue_new peeked unstored desc
  unfold View.defineElement
  cases plain : desc.isPlain with
  | true =>
    rw [plain, if_pos rfl] at chosen
    simp only [chosen, peeked]
    rfl
  | false =>
    rw [plain, if_neg Bool.false_ne_true] at chosen
    have missing : view.record.layout.offset? (.index index) = none :=
      Record.find?_eq_none_iff.mp unstored
    have refused : (view.record.define (.index index) desc false).1 = .rejected .notExtensible := by
      rw [Record.define, missing]
      rfl
    unfold View.defineStored
    simp only [chosen, moveToStore_of_empty empty, refused]

/-- A new index is accepted only if the array may be extended, and its length changed if need be. -/
theorem room_of_accepted (absent : view.owns index = false)
    (accepted : (view.define bound index desc extensible).1 = .accepted) :
    extensible = true ∧ (view.lengthWritable = true ∨ index < view.length) := by
  unfold View.define at accepted
  split at accepted
  · cases accepted
  · rename_i inside
    refine ⟨?_, by grind⟩
    cases extensible with
    | true => rfl
    | false =>
      simp only [defineElement_closed absent] at accepted
      cases accepted

/-- What an accepted definition leaves at an index has what was asked for. -/
theorem meets_of_define (sound : view.Sound) (bounded : view.Bounded)
    (solid : view.Proper Value.Solid) (small : index < Key.indexBound)
    (single : (desc.attributes.data && desc.attributes.accessor) = false)
    (given : desc.All Value.Solid)
    (accepted : (view.define bound index desc extensible).1 = .accepted) :
    ∃ slot, (view.define bound index desc extensible).2.visible index = some slot ∧
      slot.Meets desc := by
  cases found : view.visible index with
  | some slot =>
    have inside := bounded.below index (owns_of_visible found)
    obtain ⟨verdict, made, _⟩ := define_found sound found given small inside bound extensible
    rw [made]
    exact Slot.meets_of_define single (verdict.symm.trans accepted)
  | none =>
    have whole : view.element index ≠ some .hole := fun held => solid.element index .hole held rfl
    rw [visible_eq_property whole] at found
    obtain ⟨rfl, room⟩ := room_of_accepted (property_eq_none_iff.mp found) accepted
    obtain ⟨_, made, filled⟩ := sound.define_new found room given bound
    exact ⟨newSlot desc, (visible_eq_property filled).trans made, meets_newSlot single⟩

/-! ### The length -/

theorem lengthOf?_ofWord (word : length < 4294967296) : lengthOf? (.ofWord length) = some length := by
  refine lengthOf?_eq_some_iff.mpr ⟨?_, word⟩
  rw [Value.toNumber_ofWord word]
  exact Double.toInt?_ofNat (by omega)

/-- What the `length` property is validated against: a value is taken for the length it denotes. -/
def lengthDescriptor? (desc : Descriptor) : Option Descriptor :=
  if desc.lacksValue then some desc
  else (lengthOf? desc.value).map fun length => .data (.ofWord length) desc.attributes

/-- The length is a word, and has what a descriptor asks for already. -/
structure MeetsLength (view : View) (desc : Descriptor) : Prop where
  word : view.length < 4294967296
  asked : ∃ wanted, lengthDescriptor? desc = some wanted ∧ view.lengthSlot.Meets wanted

theorem setLengthSlot_self (word : view.length < 4294967296) :
    view.setLengthSlot view.lengthSlot = view := by
  have value : view.lengthSlot.value = .ofWord view.length := rfl
  have same := length_setLengthSlot view value word
  unfold setLengthSlot at same ⊢
  simp only at same ⊢
  rw [same]
  rfl

theorem applyLength_of_meets (word : view.length < 4294967296)
    (meets : view.lengthSlot.Meets desc) : view.applyLength desc = (.accepted, view) := by
  unfold applyLength
  simp only [meets.validate]
  rw [meets.merge, setLengthSlot_self word]

theorem MeetsLength.defineLength (meets : view.MeetsLength desc) (doomed : List Nat) :
    view.defineLength doomed desc = (.ok .accepted, view) := by
  obtain ⟨word, wanted, asked, met⟩ := meets
  have applied := applyLength_of_meets word met
  unfold lengthDescriptor? at asked
  unfold View.defineLength
  by_cases bare : desc.lacksValue = true
  · rw [if_pos bare] at asked ⊢
    cases asked
    rw [applied]
  · rw [if_neg bare] at asked ⊢
    obtain ⟨length, sought, rfl⟩ := Option.map_eq_some_iff.mp asked
    have value : Value.ofWord length = .ofWord view.length :=
      (value_merge_data view.lengthSlot desc.attributes _).symm.trans (congrArg Slot.value met.merge)
    have same : length = view.length := by
      have read := congrArg lengthOf? value
      rw [lengthOf?_ofWord word, lengthOf?_ofWord (lengthOf?_lt sought)] at read
      exact Option.some.inj read
    simp only [sought]
    unfold assignLength
    simp only [if_pos same.ge, applied]

/-- What is accepted of the length is a length again. -/
theorem merge_lengthSlot_eq (accepted : view.lengthSlot.validate desc = .accepted) :
    view.lengthSlot.merge desc =
      { value := (view.lengthSlot.merge desc).value
        flags := .ofLength (view.lengthSlot.merge desc).flags.writable } := by
  have endures : view.lengthSlot.Endures (view.lengthSlot.merge desc) :=
    Slot.endures_merge rfl rfl accepted
  have before : view.lengthSlot.Proper fun _ => True :=
    ⟨trivial, trivial, trivial, rfl, fun _ => ⟨rfl, rfl⟩, fun accessor => by cases accessor⟩
  have proper : (view.lengthSlot.merge desc).Proper fun _ => True :=
    Slot.proper_merge trivial before ⟨trivial, trivial, trivial⟩
  obtain ⟨getter, setter⟩ := proper.data endures.accessor
  have configurable := endures.configurable
  have enumerable := endures.enumerable
  have data := endures.data
  have accessor := endures.accessor
  generalize view.lengthSlot.merge desc = merged at *
  obtain ⟨_, _, _, ⟨_, _, _, _, _⟩⟩ := merged
  cases getter
  cases setter
  cases configurable
  cases enumerable
  cases data
  cases accessor
  rfl

theorem validate_of_applyLength (accepted : (view.applyLength desc).1 = .accepted) :
    view.lengthSlot.validate desc = .accepted := by
  unfold applyLength at accepted
  cases verdict : view.lengthSlot.validate desc with
  | accepted => rfl
  | rejected reason =>
    rw [verdict] at accepted
    cases accepted

theorem meets_of_applyLength (single : (desc.attributes.data && desc.attributes.accessor) = false)
    (accepted : (view.applyLength desc).1 = .accepted)
    (value : (view.lengthSlot.merge desc).value = .ofWord length) (word : length < 4294967296) :
    (view.applyLength desc).2.length < 4294967296 ∧
      (view.applyLength desc).2.lengthSlot.Meets desc := by
  have verdict := validate_of_applyLength accepted
  have same := length_setLengthSlot view value word
  have slot : (view.setLengthSlot (view.lengthSlot.merge desc)).lengthSlot =
      view.lengthSlot.merge desc := by
    have merged := merge_lengthSlot_eq verdict
    rw [value] at merged
    rw [lengthSlot, same]
    exact merged.symm
  unfold applyLength
  simp only [verdict]
  rw [same, slot]
  exact ⟨word, Slot.meets_merge single _⟩

/-- A length that was lowered has what was asked for, though it was made read-only in the end only. -/
theorem meets_lowered {attributes : Attributes}
    (verdict : view.lengthSlot.validate
      ((Descriptor.data (.ofWord length) attributes).withWritable true) = .accepted) :
    Slot.Meets
      { value := .ofWord length, flags := .ofLength (attributes.writableAbsent || attributes.writable) }
      (.data (.ofWord length) attributes) := by
  have bears : view.lengthSlot.Bears ((Descriptor.data (.ofWord length) attributes).withWritable true) :=
    Slot.bears_of_accepted rfl rfl verdict
  have configurable : attributes.configurableAbsent = false → attributes.configurable = false :=
    bears.configurable
  have enumerable : attributes.enumerableAbsent = false → attributes.enumerable = false :=
    bears.enumerable
  have given : attributes.writableAbsent = false →
      attributes.writable = (attributes.writableAbsent || attributes.writable) := by grind
  have same := Value.sameValue_refl
  generalize (attributes.writableAbsent || attributes.writable) = writable at given ⊢
  constructor
  · simp only [Slot.agrees, Flags.ofLength, Descriptor.data, same, Bool.and_eq_true,
      Bool.or_eq_true]
    grind
  · simp only [Slot.merge, Slot.asData, Attributes.isGeneric, Flags.ofLength, Descriptor.data]
    grind

/-- An array that could be shortened has the length that it was to have. -/
theorem Sound.lengthSlot_shrink (sound : view.Sound) {writable : Bool}
    (accepted : (view.shrink doomed length writable).1 = .ok .accepted) :
    (view.shrink doomed length writable).2.length = length ∧
      (view.shrink doomed length writable).2.lengthSlot =
        { value := .ofWord length, flags := .ofLength (view.lengthWritable && writable) } := by
  have kept := (sound.deleteEach_frame doomed).1
  unfold View.shrink at accepted ⊢
  rw [← kept]
  cases stopped : (view.deleteEach doomed).1 with
  | none =>
    simp only [stopped]
    exact ⟨rfl, rfl⟩
  | some index =>
    simp only [stopped] at accepted
    split at accepted <;> cases accepted

theorem meets_of_assignLength (sound : view.Sound) (word : length < 4294967296)
    {attributes : Attributes}
    (accepted : (view.assignLength doomed length attributes).1 = .ok .accepted) :
    (view.assignLength doomed length attributes).2.length < 4294967296 ∧
      (view.assignLength doomed length attributes).2.lengthSlot.Meets
        (.data (.ofWord length) attributes) := by
  rcases view.assignLength_cases length attributes with
    ⟨_, same⟩ | ⟨_, same⟩ | ⟨_, _, verdict, same⟩
  · rw [same] at accepted ⊢
    exact meets_of_applyLength rfl (Except.ok.inj accepted) (value_merge_data ..) word
  · rw [same] at accepted
    cases accepted
  · rw [same] at accepted ⊢
    obtain ⟨cut, slot⟩ := (sound.lowered length attributes).lengthSlot_shrink accepted
    have writable : (view.lowered length attributes).lengthWritable = true := rfl
    rw [cut, slot, writable, Bool.true_and]
    exact ⟨word, meets_lowered verdict⟩

/-- An accepted definition of the length leaves it as it was asked for. -/
theorem Sound.meetsLength (sound : view.Sound) (word : view.length < 4294967296)
    (single : (desc.attributes.data && desc.attributes.accessor) = false)
    (accepted : (view.defineLength doomed desc).1 = .ok .accepted) :
    (view.defineLength doomed desc).2.MeetsLength desc := by
  unfold View.defineLength at accepted ⊢
  by_cases bare : desc.lacksValue = true
  · rw [if_pos bare] at accepted ⊢
    have made := Except.ok.inj accepted
    obtain ⟨small, meets⟩ := meets_of_applyLength single made
      (value_merge_lengthSlot (validate_of_applyLength made) bare) word
    exact ⟨small, desc, if_pos bare, meets⟩
  · rw [if_neg bare] at accepted ⊢
    cases sought : lengthOf? desc.value with
    | none =>
      rw [sought] at accepted
      cases accepted
    | some length =>
      rw [sought] at accepted
      obtain ⟨small, meets⟩ := meets_of_assignLength sound (lengthOf?_lt sought) accepted
      refine ⟨small, _, ?_, meets⟩
      rw [lengthDescriptor?, if_neg bare, sought, Option.map_some]

end Elements.View

end HiddenClass
