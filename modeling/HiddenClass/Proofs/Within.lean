import HiddenClass.Proofs.Elements.Bounded
import HiddenClass.Proofs.Evolution
import HiddenClass.Proofs.Realm.Every

/-!
The length of an array is a machine word and its array indices lie below it, in every state that there
is. Holes and keys that no text is interned to make no difference to that. An overflow leaves a word,
but may leave indices beyond it.
-/

namespace HiddenClass

namespace Elements.View

variable {view : View} {index length : Nat} {indices : List Nat} {desc : Descriptor} {P : Nat → Prop}

theorem within_ofLength (length : Nat) : (ofLength length).Within P :=
  fun _ _ owned => absurd owned Bool.false_ne_true

theorem Within.of_owns {after : View} (within : view.Within P)
    (owns : ∀ index, P index → after.owns index = true → view.owns index = true)
    (longer : view.length ≤ after.length) : after.Within P :=
  fun index kind owned => (within index kind (owns index kind owned)).trans_le longer

theorem Within.delete (within : view.Within P) (sound : view.Sound) (index : Nat) :
    (view.delete index).2.Within P :=
  within.of_owns (fun _ _ owned => owns_of_delete sound owned) (length_delete view index).ge

/-- A descriptor without a value leaves the length as it is, whatever it is. -/
theorem Within.applyLength_bare (within : view.Within P) (bare : desc.lacksValue = true) :
    (view.applyLength desc).2.Within P := by
  unfold applyLength
  cases verdict : view.lengthSlot.validate desc with
  | accepted =>
    have kept : (view.setLengthSlot (view.lengthSlot.merge desc)).length = view.length := by
      apply length_of_sameValue
      rw [value_merge_lengthSlot verdict bare]
      exact Value.sameValue_refl _
    exact within.of_owns (fun _ _ owned => owned) kept.ge
  | rejected reason => exact within

theorem Within.applyLength_longer (within : view.Within P) (longer : view.length ≤ length)
    (word : length < 4294967296) (attributes : Attributes) :
    (view.applyLength (.data (.ofWord length) attributes)).2.Within P := by
  unfold applyLength
  cases view.lengthSlot.validate (.data (.ofWord length) attributes) with
  | accepted =>
    have same := length_setLengthSlot view
      (value_merge_data view.lengthSlot attributes (.ofWord length)) word
    exact within.of_owns (fun _ _ owned => owned) (longer.trans_eq same.symm)
  | rejected reason => exact within

theorem Within.assignLength (within : view.Within P) (sound : view.Sound)
    (small : ∀ index, P index → view.owns index = true → index < Key.indexBound)
    (doomed : view.Doomed length view.length indices) (word : length < 4294967296)
    {attributes : Attributes}
    (fits : (view.assignLength indices length attributes).1 ≠ .error .overflow) :
    (view.assignLength indices length attributes).2.Within P := by
  rcases view.assignLength_cases length attributes with ⟨longer, same⟩ | ⟨_, same⟩ | ⟨_, _, _, same⟩
  · rw [same]
    exact within.applyLength_longer longer word attributes
  · rw [same]
    exact within
  · rw [same] at fits ⊢
    exact within_shrink (sound.lowered length attributes) (doomed.lowered attributes) small within _
      fits

theorem Within.defineLength (within : view.Within P) (sound : view.Sound)
    (small : ∀ index, P index → view.owns index = true → index < Key.indexBound)
    (doomed : ∀ length, lengthOf? desc.value = some length →
      view.Doomed length view.length indices)
    (fits : (view.defineLength indices desc).1 ≠ .error .overflow) :
    (view.defineLength indices desc).2.Within P := by
  unfold View.defineLength at fits ⊢
  by_cases bare : desc.lacksValue = true
  · rw [if_pos bare]
    exact within.applyLength_bare bare
  · rw [if_neg bare] at fits ⊢
    cases found : lengthOf? desc.value with
    | none => exact within
    | some length =>
      rw [found] at fits
      exact within.assignLength sound small (doomed length found) (lengthOf?_lt found) fits

/-! ### Words -/

theorem length_deleteEach (indices : List Nat) (view : View) :
    (view.deleteEach indices).2.length = view.length := by
  induction indices generalizing view with
  | nil => rfl
  | cons first rest ih =>
    rw [← length_delete view first]
    unfold View.deleteEach
    simp only
    split
    · exact ih _
    · rfl

/-- An array is settled at the length that is wanted, or above an array index that stays. -/
theorem word_shrink (word : length < 4294967296) (before : view.length < 4294967296)
    (indices : List Nat) (writable : Bool) :
    (view.shrink indices length writable).2.length < 4294967296 := by
  unfold View.shrink
  simp only
  split
  · exact word
  · split
    · rename_i small
      exact Nat.succ_lt_succ small
    · exact (length_deleteEach indices view).trans_lt before

theorem word_defineLength (word : view.length < 4294967296) (indices : List Nat)
    (desc : Descriptor) : (view.defineLength indices desc).2.length < 4294967296 := by
  have asked : ∀ {length : Nat} {slot : Slot}, length < 4294967296 → slot.value = .ofWord length →
      (view.setLengthSlot slot).length < 4294967296 := fun small value =>
    (length_setLengthSlot view value small).trans_lt small
  unfold View.defineLength
  by_cases bare : desc.lacksValue = true
  · rw [if_pos bare]
    unfold View.applyLength
    cases verdict : view.lengthSlot.validate desc with
    | accepted => exact asked word (value_merge_lengthSlot verdict bare)
    | rejected reason => exact word
  · rw [if_neg bare]
    cases found : lengthOf? desc.value with
    | none => exact word
    | some length =>
      have small := lengthOf?_lt found
      rcases view.assignLength_cases length desc.attributes with
        ⟨_, same⟩ | ⟨_, same⟩ | ⟨_, _, _, same⟩
      · simp only [same]
        unfold View.applyLength
        split
        · exact asked small (value_merge_data ..)
        · exact word
      · simp only [same]
        exact word
      · have lowered : (view.lowered length desc.attributes).length < 4294967296 :=
          asked small (value_merge_data ..)
        simp only [same]
        exact word_shrink small lowered indices _

end Elements.View

namespace Object.Content

variable {content : Content} {key : Key} {desc : Descriptor} {bound : Nat} {doomed : List Nat}
  {extensible : Bool}

/-- The array indices of an array lie below its length. -/
def Within : Content → Prop
  | .ordinary _ => True
  | .array view => view.Within (· < Key.indexBound)

/-- A name is none of the array indices. -/
theorem index_ne_of_role {index : Nat} (role : key.role = .name) (small : index < Key.indexBound) :
    Key.index index ≠ key := fun same => (Key.of_role_name role).2 index small same.symm

theorem Within.define (within : content.Within) (sound : content.Sound)
    (listed : ∀ length, key = Key.length → Elements.lengthOf? desc.value = some length →
      content.Doomed length doomed)
    (fits : (content.define bound doomed key desc extensible).1 ≠ .error .overflow) :
    (content.define bound doomed key desc extensible).2.Within := by
  cases content with
  | ordinary record => trivial
  | array view =>
    unfold Content.define at fits ⊢
    cases role : key.role with
    | element index => exact Elements.View.Within.define within sound bound index desc extensible
    | length =>
      rw [role] at fits
      exact Elements.View.Within.defineLength within sound (fun _ small _ => small)
        (fun length found => listed length (Key.of_role_length role) found) fits
    | name =>
      refine Elements.View.Within.of_owns within (fun index small owned => ?_) Nat.le.refl
      have apart := index_ne_of_role role small
      have soundRecord : view.record.Sound := Elements.View.Sound.record sound
      have kept := soundRecord.find?_define_of_ne apart desc extensible
      rw [Elements.View.owns_withRecord, kept] at owned
      exact owned

theorem Within.delete (within : content.Within) (sound : content.Sound) (key : Key) :
    (content.delete key).2.Within := by
  cases content with
  | ordinary record => trivial
  | array view =>
    unfold Content.delete
    cases role : key.role with
    | element index => exact Elements.View.Within.delete within sound index
    | length => exact within
    | name =>
      refine Elements.View.Within.of_owns within (fun index small owned => ?_) Nat.le.refl
      have soundRecord : view.record.Sound := Elements.View.Sound.record sound
      have kept := soundRecord.find?_delete_of_ne (index_ne_of_role role small)
      rw [Elements.View.owns_withRecord, kept] at owned
      exact owned

/-- The length of an array is a machine word. -/
def Word : Content → Prop
  | .ordinary _ => True
  | .array view => view.length < 4294967296

theorem Word.define (word : content.Word) (sound : content.Sound) :
    (content.define bound doomed key desc extensible).2.Word := by
  cases content with
  | ordinary record => trivial
  | array view =>
    unfold Content.define
    cases role : key.role with
    | element index =>
      rcases Elements.View.length_define sound bound index desc extensible with same | longer
      · exact same.trans_lt word
      · exact longer.trans_lt (Nat.succ_lt_succ (Key.of_role_element role).2)
    | length => exact Elements.View.word_defineLength word doomed desc
    | name => exact word

theorem Word.delete (word : content.Word) (key : Key) : (content.delete key).2.Word := by
  cases content with
  | ordinary record => trivial
  | array view =>
    unfold Content.delete
    cases key.role with
    | element index => exact (Elements.View.length_delete view index).trans_lt word
    | length => exact word
    | name => exact word

end Object.Content

/-- The length of a new array is a machine word. -/
def Request.Sized : Request → Prop
  | .newArray length => length < 4294967296
  | _ => True

instance : DecidablePred Request.Sized
  | .newArray length => inferInstanceAs (Decidable (length < 4294967296))
  | .intern _ | .newObject _ | .newUniqueObject _ | .getOwn .. | .getProperty .. | .read ..
  | .put .. | .define .. | .delete .. | .keys .. | .preventExtensions _ | .setPrototype ..
  | .makeUnique _ | .makeTransitionable _ | .collect _ => inferInstanceAs (Decidable True)

namespace Realm

variable {host : Host} {realm : Realm} {chart : Chart} {views : Views} {turn : Turn}
  {turns : List Turn}

theorem Holds.within_turn (holds : realm.Holds chart views) (valid : views.Valid)
    (within : views.Every Object.Content.Within) (lawful : turn.isLawful realm = true)
    (fits : turn.overflows host realm = false) :
    ∃ (after : Chart) (later : Views), (turn.after host realm).Holds after later ∧ later.Valid ∧
      later.Every Object.Content.Within := by
  obtain ⟨after, later, held, validLater, rfl | ⟨request, next, rfl, _, step⟩⟩ :=
    holds.takeTurn valid host lawful
  · exact ⟨after, later, held, validLater, within⟩
  · refine ⟨after, later, held, validLater, within.of_step step trivial (fun length _ => ?_)
      (fun object key desc raises view bound doomed _ shown listed reply => ?_)
      fun object key raises view _ shown => ?_⟩
    · exact Elements.View.within_ofLength length
    · refine (within object view shown).define (valid.sound object view shown) listed fun exceeds => ?_
      refine absurd ?_ (of_decide_eq_false fits)
      rw [reply, Object.View.define, exceeds]
      rfl
    · exact (within object view shown).delete (valid.sound object view shown) key

/-- Whatever the turns of a course are, no array has an array index past its length. -/
theorem within_course {config : Config} (lawful : (ofConfig config).lawful host turns = true)
    (fits : (ofConfig config).uninterrupted host turns = true) :
    ∃ (chart : Chart) (views : Views), ((ofConfig config).course host turns).Holds chart views ∧
      views.Valid ∧ views.Every Object.Content.Within := by
  have course : ∀ {turns : List Turn} {realm : Realm} {chart : Chart} {views : Views},
      realm.Holds chart views → views.Valid → views.Every Object.Content.Within →
      realm.lawful host turns = true → realm.uninterrupted host turns = true →
      ∃ (after : Chart) (later : Views), (realm.course host turns).Holds after later ∧
        later.Valid ∧ later.Every Object.Content.Within := by
    intro turns
    induction turns with
    | nil => exact fun holds valid within _ _ => ⟨_, _, holds, valid, within⟩
    | cons turn rest ih =>
      intro realm chart views holds valid within lawful fits
      obtain ⟨first, others⟩ := lawful_cons.mp lawful
      obtain ⟨small, further⟩ := uninterrupted_cons.mp fits
      obtain ⟨_, _, held, validLater, withinLater⟩ := holds.within_turn valid within first small
      exact ih held validLater withinLater others further
  obtain ⟨chart, holds⟩ := holds_ofConfig config
  exact course holds valid_empty Views.every_empty lawful fits

theorem lasting_word : Lasting Object.Content.Word Request.Sized where
  ordinary := trivial
  array := fun sized => sized
  define := fun _ _ sound word _ _ _ _ => word.define sound
  delete := fun _ _ _ word => word.delete _
  ask := fun sized asked => by
    rcases Request.of_ask asked with ⟨_, rfl⟩ | ⟨_, _, _, _, _, rfl, rfl, _⟩
    · exact sized
    · trivial

/-- Whatever the turns of a course are, and even if they overflow, all lengths are machine words. -/
theorem word_course {config : Config} (lawful : (ofConfig config).lawful host turns = true)
    (sized : ∀ turn ∈ turns, turn.request.Sized) :
    ∃ (chart : Chart) (views : Views), ((ofConfig config).course host turns).Holds chart views ∧
      views.Valid ∧ views.Every Object.Content.Word :=
  every_course lasting_word lawful sized

end Realm

end HiddenClass
