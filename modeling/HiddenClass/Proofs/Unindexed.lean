import HiddenClass.Proofs.Lengths
import HiddenClass.Proofs.Within

/-!
What a definition of the length of an array leaves alone. A key past the array indices is held among the
names of an array. It stays with them, too, when the array is cut or a range of indices is walked, but
not when the indices that exist are listed, where it is taken for one of them.
-/

namespace HiddenClass

namespace Elements

variable {view : View} {key : Key} {desc : Descriptor} {doomed : List Nat} {length : Nat}

/-- What a definition gives the length of an array is valid and lower. -/
structure Traits.Lowers (traits : Traits) (desc : Descriptor) (length : Nat) : Prop where
  given : desc.lacksValue = false
  sought : lengthOf? desc.value = some length
  shorter : length < traits.length
  writable : traits.lengthWritable = true
  valid : traits.lengthSlot.validate
    ((Descriptor.data (.ofWord length) desc.attributes).withWritable true) = .accepted

namespace View

theorem record_applyLength (view : View) (desc : Descriptor) :
    (view.applyLength desc).2.record = view.record := by
  unfold applyLength
  split <;> rfl

/-- A property stays that is not among the indices to be deleted, or not configurable. -/
theorem Sound.find?_assignLength (sound : view.Sound) (given : desc.lacksValue = false)
    (sought : lengthOf? desc.value = some length)
    (spared : view.traits.Lowers desc length →
      (∀ index ∈ doomed, key ≠ .index index) ∨ view.record.Keeps key) :
    (view.assignLength doomed length desc.attributes).2.record.find? key =
      view.record.find? key := by
  rcases view.assignLength_cases length desc.attributes with
    ⟨_, same⟩ | ⟨_, same⟩ | ⟨shorter, writable, valid, same⟩
  · rw [same, record_applyLength]
  · rw [same]
  · have lowers : view.traits.Lowers desc length := ⟨given, sought, shorter, writable, valid⟩
    rw [same, record_shrink]
    exact ((sound.lowered length desc.attributes).deleteEach_frame doomed).2 key (spared lowers)

theorem Sound.find?_defineLength (sound : view.Sound)
    (spared : ∀ length, view.traits.Lowers desc length →
      (∀ index ∈ doomed, key ≠ .index index) ∨ view.record.Keeps key) :
    (view.defineLength doomed desc).2.record.find? key = view.record.find? key := by
  unfold View.defineLength
  cases given : desc.lacksValue with
  | true => exact congrArg (Record.find? · key) (record_applyLength view desc)
  | false =>
    cases sought : lengthOf? desc.value with
    | none => rfl
    | some length => exact sound.find?_assignLength given sought (spared length)

end View

end Elements

namespace Realm

variable {host : Host} {realm : Realm} {chart : Chart} {views : Views} {array : Handle}
  {object : Object} {elements : Elements} {turns : List Turn}

theorem Holds.sight_name (holds : realm.Holds chart views) {content : Elements.View}
    {extensible : Bool} {prototype : Option Handle}
    (shown : views array = some { content := .array content, extensible, prototype }) {key : Key}
    (role : key.role = .name) :
    realm.sight.own array key = some ((content.record.find? key).map Slot.toDescriptor) := by
  rw [holds.sight_own shown, Object.View.getOwn, Object.Content.getOwn_name role]

/-- A definition of the length, with the indices that are visited. -/
theorem Holds.outcome_visits (holds : realm.Holds chart views) (host : Host) {view : Object.View}
    (shown : views array = some view) (sound : view.content.Sound)
    (found : realm.objects.get? array = some object) (held : object.elements? = some elements)
    (desc : Descriptor) (raises : Bool) :
    ∃ (content : Elements.View) (after : Chart) (doomed : List Nat),
      view.content = .array content ∧ elements.Holds object.store chart content ∧
      (∀ length, Elements.lengthOf? desc.value = some length →
        elements.Visits content length content.length doomed) ∧
      ((Request.define array .length desc raises).outcome host realm).2.Holds after
        (views.update array { view with content := .array (content.defineLength doomed desc).2 }) := by
  have kind : object.kind = .array elements := by
    unfold Object.elements? at held
    split at held
    · rename_i kind
      exact kind.trans (congrArg ObjectKind.array (Option.some.inj held))
    · cases held
  obtain ⟨cell, again, held⟩ := holds.find shown
  cases found.symm.trans again
  have contentHeld := held.content
  cases content : view.content with
  | ordinary record =>
    rw [content] at contentHeld
    cases kind.symm.trans contentHeld.1
  | array array =>
    rw [content] at contentHeld sound
    obtain ⟨inner, innerKind, elementsHeld⟩ := contentHeld
    cases kind.symm.trans innerKind
    obtain ⟨doomed, visits, concludes⟩ := held.define_length content sound kind desc
    obtain ⟨later, after, ran, heldLater⟩ := holds.onObject_ok found concludes
    refine ⟨array, after, doomed, rfl, elementsHeld, visits, ?_⟩
    rw [outcome_report ran raises rfl]
    exact heldLater

/-- At any moment of a course, and whatever a definition of the length of an array comes to, the names
of the array stay as they are. So does what it has past the array indices, unless it is sparse and the
indices that exist are listed to shorten it, and even then if it is not configurable: then no length is
above the property that stops the deletions, and the request overflows. The handles that the course
passes are live, and new arrays are no longer than a machine word says. -/
theorem defineLength_unindexed {config : Config}
    (lawful : (ofConfig config).lawful host turns = true)
    (sized : ∀ turn ∈ turns, turn.request.Sized)
    (found : (((ofConfig config).course host turns).objects.get? array).bind Object.elements? =
      some elements)
    (desc : Descriptor) (raises : Bool) :
    let realm := (ofConfig config).course host turns
    let outcome := (Request.define array .length desc raises).outcome host realm
    (∀ id, Key.named id ≠ .length →
      outcome.2.sight.own array (.named id) = realm.sight.own array (.named id)) ∧
    ∀ index, Key.indexBound ≤ index →
      (∀ length, elements.traits.Lowers desc length →
          elements.lists length elements.length = false) ∨
        (∀ own, realm.sight.own array (.index index) = some (some own) →
          own.isConfigurable = false) →
      outcome.2.sight.own array (.index index) = realm.sight.own array (.index index) := by
  intro realm outcome
  obtain ⟨chart, views, holds, valid, words⟩ := word_course lawful sized
  obtain ⟨object, found, kind⟩ := Option.bind_eq_some_iff.mp found
  obtain ⟨⟨_, extensible, prototype⟩, shown, _⟩ := holds.view array object found
  have sound := valid.sound array _ shown
  obtain ⟨content, after, doomed, rfl, held, visits, heldAfter⟩ :=
    holds.outcome_visits host shown sound found kind desc raises
  have word : elements.length < 4294967296 := held.length ▸ words array _ shown
  have traits : content.traits = elements.traits := by
    unfold Elements.View.traits Elements.traits
    rw [held.length, held.lengthWritable, held.dense]
  -- both kinds of keys are found among the names, before and afterwards
  have stays : ∀ key : Key, key.role = .name →
      (∀ length, content.traits.Lowers desc length →
        (∀ index ∈ doomed, key ≠ .index index) ∨ content.record.Keeps key) →
      outcome.2.sight.own array key = realm.sight.own array key := by
    intro key role spared
    rw [holds.sight_name shown role, heldAfter.sight_name (Views.update_same ..) role,
      Elements.View.Sound.find?_defineLength sound spared]
  refine ⟨fun id different => stays (.named id) ?_ fun _ _ => Or.inl fun _ _ => Key.noConfusion,
    fun index past spared => ?_⟩
  · rw [Key.role_named, if_neg different]
  · have role : (Key.index index).role = .name := by
      rw [Key.role_index, if_neg (Nat.not_lt.mpr past)]
    refine stays (.index index) role fun length lowers => ?_
    rcases spared with unlisted | fixed
    · left
      rintro other member same
      have below := (visits length lowers.sought).below (by
        rw [← held.length]
        exact unlisted length (traits ▸ lowers)) other member
      rw [← held.length, ← Key.index.inj same] at below
      exact absurd past (by unfold Key.indexBound; omega)
    · right
      intro slot stored
      have own := holds.sight_name shown role
      rw [stored] at own
      exact (Slot.configurable_toDescriptor slot).symm.trans (fixed _ own)

/-- An array of three elements, of which one is not plain, with a property past the array indices. -/
def bordering : List Turn :=
  let array : Handle := ⟨0, 0⟩
  [.make (.newArray 3), .make (.define array (.index 1) (.data .null { configurable := true }) true),
    .make (.put array (.index 4294967295) (.text "kept") true),
    .make (.put array (.named 1) (.text "named") true)]

theorem defineLength_unindexed_walked :
    let realm := (ofConfig {}).course Host.none bordering
    let elements : Elements :=
      { vector := #[.hole, .hole, .hole], dense := false, length := 3
        maxVectorSize := 10000, shrinkScanThreshold := 16777216 }
    let desc := Descriptor.assignment (.int 1)
    let outcome := (Request.define ⟨0, 0⟩ .length desc true).outcome Host.none realm
    (ofConfig {}).lawful Host.none bordering = true ∧
      (realm.objects.get? ⟨0, 0⟩).bind Object.elements? = some elements ∧
      (∀ turn ∈ bordering, turn.request.Sized) ∧ Key.indexBound ≤ 4294967295 ∧
      elements.traits.Lowers desc 1 ∧
      (∀ length, elements.traits.Lowers desc length →
        elements.lists length elements.length = false) ∧
      outcome.1 = .answered (.accepted true) ∧
      outcome.2.sight.own ⟨0, 0⟩ (.named 1) = some (some (.plain (.text "named"))) ∧
      outcome.2.sight.own ⟨0, 0⟩ (.index 4294967295) = some (some (.plain (.text "kept"))) := by
  intro realm elements desc outcome
  have lawful : (ofConfig {}).lawful Host.none bordering = true := by decide +kernel
  have found : (realm.objects.get? ⟨0, 0⟩).bind Object.elements? = some elements := by
    decide +kernel
  have lowers : elements.traits.Lowers desc 1 := by constructor <;> decide +kernel
  have walked : ∀ length, elements.traits.Lowers desc length →
      elements.lists length elements.length = false := by
    intro length _
    have near : ¬16777216 ≤ 3 - length := by omega
    exact Bool.and_eq_false_iff.mpr (Or.inr (decide_eq_false near))
  have reply : outcome.1 = .answered (.accepted true) := by decide +kernel
  have name : realm.sight.own ⟨0, 0⟩ (.named 1) = some (some (.plain (.text "named"))) := by
    decide +kernel
  have past : realm.sight.own ⟨0, 0⟩ (.index 4294967295) = some (some (.plain (.text "kept"))) := by
    decide +kernel
  have sized : ∀ turn ∈ bordering, turn.request.Sized := by decide
  obtain ⟨names, indices⟩ := defineLength_unindexed lawful sized found desc true
  exact ⟨lawful, found, sized, by decide, lowers, walked, reply,
    (names 1 (by decide)).trans name,
    (indices 4294967295 (by decide) (Or.inl walked)).trans past⟩

/-- A property past the array indices that cannot be deleted stays. The length has been lowered when
the request overflows. -/
example :
    let realm := (ofConfig { shrinkScanThreshold := 1 }).course Host.none
      [.make (.newArray 3),
        .make (.define ⟨0, 0⟩ (.index 1) (.data .null { configurable := true }) true),
        .make (.define ⟨0, 0⟩ (.index 4294967295) (.data .null {}) true)]
    let outcome := (Request.define ⟨0, 0⟩ .length (.assignment (.int 1)) true).outcome Host.none realm
    outcome.1 = .stopped .overflow ∧
      outcome.2.sight.own ⟨0, 0⟩ (.index 4294967295) = some (some (.data .null {})) ∧
      outcome.2.sight.traits ⟨0, 0⟩ =
        some ⟨true, none, some { length := 1, lengthWritable := true, dense := false }⟩ := by
  decide +kernel

/-- Where the indices that exist are listed, the property past the array indices is deleted with
them. -/
theorem defineLength_takes_unindexed :
    let config : Config := { shrinkScanThreshold := 1 }
    let realm := (ofConfig config).course Host.none bordering
    let outcome := (Request.define ⟨0, 0⟩ .length (.assignment (.int 1)) true).outcome Host.none realm
    (ofConfig config).lawful Host.none bordering = true ∧
      Key.indexBound ≤ 4294967295 ∧ Key.index 4294967295 ≠ .length ∧
      realm.sight.own ⟨0, 0⟩ (.index 4294967295) = some (some (.plain (.text "kept"))) ∧
      outcome.1 = .answered (.accepted true) ∧
      outcome.2.sight.own ⟨0, 0⟩ (.index 4294967295) = some none ∧
      ¬∀ (host : Host) (config : Config) (turns : List Turn) (array : Handle) (desc : Descriptor)
          (raises : Bool) (index : Nat), (ofConfig config).lawful host turns = true →
        let realm := (ofConfig config).course host turns
        Key.indexBound ≤ index →
        ((Request.define array .length desc raises).outcome host realm).2.sight.own array
          (.index index) = realm.sight.own array (.index index) := by
  intro config realm outcome
  have lawful : (ofConfig config).lawful Host.none bordering = true := by decide +kernel
  have before : realm.sight.own ⟨0, 0⟩ (.index 4294967295) = some (some (.plain (.text "kept"))) := by
    decide +kernel
  have reply : outcome.1 = .answered (.accepted true) := by decide +kernel
  have gone : outcome.2.sight.own ⟨0, 0⟩ (.index 4294967295) = some none := by decide +kernel
  refine ⟨lawful, by decide, by decide, before, reply, gone, fun kept => ?_⟩
  have same := kept Host.none config bordering ⟨0, 0⟩ (.assignment (.int 1)) true 4294967295 lawful
    (by decide)
  cases gone.symm.trans (same.trans before)

end Realm

end HiddenClass
