import HiddenClass.Proofs.Holes
import HiddenClass.Proofs.Repetition

/-!
Defining what an object shows of a property. At the property itself nothing changes, whatever kind of
property it is, and where there is none a property is made that shows the same.
-/

namespace HiddenClass

namespace Slot

variable {slot : Slot}

theorem built_toDescriptor (slot : Slot) : slot.toDescriptor.Built := by
  unfold toDescriptor
  split
  · exact .accessor ..
  · exact .data ..

/-- What is shown of a property says of which type it is. -/
theorem isMistakable_toDescriptor (slot : Slot) : slot.toDescriptor.isMistakable = false := by
  unfold toDescriptor
  split <;> rfl

end Slot

/-! ### Objects -/

namespace Object.Content

variable {content : Content} {key : Key} {slot : Slot}

/-- An object has what it shows. -/
theorem met_toDescriptor {P : Value → Prop} (settled : content.Settled) (proper : content.Proper P)
    (found : content.slot? key = some slot) : content.Met key slot.toDescriptor := by
  have meets := Slot.meets_toDescriptor (proper_slot? proper found).type
  by_cases same : key = .length
  · subst same
    cases content with
    | ordinary record => exact .slot (Or.inl rfl) found meets
    | array view =>
      rw [slot?_length role_length] at found
      cases found
      have word := settled.bounded.word
      refine .length ⟨word, view.lengthSlot.toDescriptor, ?_, meets⟩
      have denoted : Elements.lengthOf? view.lengthSlot.toDescriptor.value = some view.length :=
        Elements.View.lengthOf?_ofWord word
      rw [Elements.View.lengthDescriptor?, denoted]
      rfl
  · exact .slot (Or.inr same) found meets

/-- An object may get a property with a key: an array is not to become longer if its length is
read-only. -/
def Room (content : Content) (key : Key) : Prop :=
  ∀ elements index, content.traits = some elements → key = .index index →
    elements.lengthWritable = true ∨ index < elements.length

/-- Where there is no property, what another one shows makes one that shows the same. -/
theorem define_absent (sound : content.Sound) (solid : content.Proper Value.Solid)
    (absent : content.slot? key = none) (room : content.Room key) (proper : slot.Proper fun _ => True)
    (given : slot.toDescriptor.All Value.Solid) (bound : Nat) (doomed : List Nat) :
    let outcome := content.define bound doomed key slot.toDescriptor true
    outcome.1 = .ok .accepted ∧
      (outcome.2.slot? key).map Slot.toDescriptor = some slot.toDescriptor := by
  have shows := congrArg some (Slot.toDescriptor_ofDescriptor proper)
  cases content with
  | ordinary record =>
    obtain ⟨accepted, after⟩ := Record.Sound.define_new sound absent slot.toDescriptor
    refine ⟨congrArg Except.ok accepted, ?_⟩
    show ((record.define key slot.toDescriptor true).2.find? key).map Slot.toDescriptor = _
    rw [after, if_pos rfl]
    exact shows
  | array view =>
    unfold Content.define
    cases role : key.role with
    | element index =>
      obtain ⟨same, small⟩ := Key.of_role_element role
      rw [slot?_element role] at absent
      have whole : view.element index ≠ some .hole := fun held => solid.element index .hole held rfl
      rw [Elements.View.visible_eq_property whole] at absent
      obtain ⟨accepted, made, filled⟩ :=
        sound.define_new absent (room view.traits index rfl same) given bound
      refine ⟨congrArg Except.ok accepted, ?_⟩
      rw [slot?_element role, Elements.View.visible_eq_property filled, made, Option.map_some,
        Elements.View.newSlot_toDescriptor slot.built_toDescriptor, slot.isMistakable_toDescriptor]
      exact shows
    | length =>
      rw [slot?_length role] at absent
      cases absent
    | name =>
      rw [slot?_name role] at absent
      have soundRecord : view.record.Sound := Elements.View.Sound.record sound
      obtain ⟨accepted, after⟩ := soundRecord.define_new absent slot.toDescriptor
      refine ⟨congrArg Except.ok accepted, ?_⟩
      rw [slot?_name role, after, if_pos rfl]
      exact shows

end Object.Content

/-! ### Realms -/

namespace Realm

variable {host : Host} {realm : Realm} {chart : Chart} {views : Views} {object target : Handle}
  {view shownTarget : Object.View} {key other : Key} {desc : Descriptor} {turns : List Turn}

namespace Holds

variable (holds : realm.Holds chart views)
include holds

/-- What is shown of a property comes from one, which an object has. -/
theorem slot_of_own (shown : views object = some view) (sound : view.content.Sound)
    (own : realm.sight.own object key = some (some desc)) :
    ∃ slot, view.content.slot? key = some slot ∧ slot.toDescriptor = desc := by
  rw [holds.sight_slot? shown sound, Option.some.injEq] at own
  exact Option.map_eq_some_iff.mp own

/-- A property is made that shows the same as another one. -/
theorem outcome_of_absent (shown : views target = some view) (sound : view.content.Sound)
    (solid : view.content.Proper Value.Solid) (isOpen : view.extensible = true)
    (absent : realm.sight.own target other = some none) (room : view.content.Room other)
    {slot : Slot} (proper : slot.Proper fun _ => True)
    (given : slot.toDescriptor.All Value.Solid) (host : Host) (raises : Bool) :
    let outcome := (Request.define target other slot.toDescriptor raises).outcome host realm
    outcome.1 = .answered (.accepted true) ∧
      outcome.2.sight.own target other = some (some slot.toDescriptor) := by
  intro outcome
  rw [holds.sight_slot? shown sound, Option.some.injEq] at absent
  have missing := Option.map_eq_none_iff.mp absent
  obtain ⟨after, bound, doomed, _, reply, held⟩ :=
    holds.outcome_define host shown sound other slot.toDescriptor raises
  obtain ⟨accepted, made⟩ :=
    Object.Content.define_absent sound solid missing room proper given bound doomed
  unfold Object.View.define at reply held
  simp only [isOpen, accepted] at reply held
  refine ⟨reply, ?_⟩
  rw [held.sight_slot? (Views.update_same ..) (sound.define ..), made]

end Holds

/-- At any moment of a plain course with live handles, an own property is defined as what is shown of it
without any change, also where it may not be changed, and where the object may not be extended. The same
definition makes a property that shows the same wherever there is none and one may be added. -/
theorem define_own {config : Config} (lawful : (ofConfig config).lawful host turns = true)
    (plain : ∀ turn ∈ turns, turn.request.Plain)
    (own : ((ofConfig config).course host turns).sight.own object key = some (some desc)) :
    let realm := (ofConfig config).course host turns
    (∀ raises,
      let outcome := (Request.define object key desc raises).outcome host realm
      outcome.1 = .answered (.accepted true) ∧ outcome.2.sight = realm.sight) ∧
    ∀ target other traits raises, realm.sight.traits target = some traits →
      traits.extensible = true → realm.sight.own target other = some none →
      (∀ elements index, traits.array = some elements → other = .index index →
        elements.lengthWritable = true ∨ index < elements.length) →
      let outcome := (Request.define target other desc raises).outcome host realm
      outcome.1 = .answered (.accepted true) ∧
        outcome.2.sight.own target other = some (some desc) := by
  intro realm
  obtain ⟨chart, views, holds, valid, settled, solid⟩ := plain_course lawful plain
  obtain ⟨view, shown⟩ := holds.shown_of_own own
  have sound := valid.sound object view shown
  obtain ⟨slot, found, rfl⟩ := holds.slot_of_own shown sound own
  have whole := solid object view shown
  have met := Object.Content.met_toDescriptor (settled object view shown) whole found
  have within := (settled object view shown).within
  refine ⟨fun raises => holds.outcome_of_met shown sound met within host raises, ?_⟩
  intro target other traits raises seen isOpen absent room
  obtain ⟨shownTarget, shownThere⟩ := holds.shown_of_own absent
  rw [holds.sight_traits shownThere, Object.View.traits_eq] at seen
  cases seen
  have given : slot.toDescriptor.All Value.Solid := by
    rw [holds.sight_own shown, Option.some.injEq] at own
    exact solid.getOwn shown own
  exact holds.outcome_of_absent shownThere (valid.sound target shownTarget shownThere)
    (solid target shownTarget shownThere) isOpen absent room
    (Object.Content.proper_slot? whole found) given host raises

/-- The longest array that there is, closed and with a read-only length, next to an empty array and an
ordinary object. -/
def sealing : List Turn :=
  let array : Handle := ⟨0, 0⟩
  let fixing := Descriptor.dataAttributes { enumerableAbsent := true, configurableAbsent := true }
  [.make (.newArray 4294967295), .make (.put array (.index 4294967294) .null true),
    .make (.define array .length fixing true), .make (.preventExtensions array),
    .make (.newArray 0), .make (.newObject none)]

/-- The length is defined as what it is, and copied to an element of the empty array. -/
theorem define_own_sealed :
    let realm := (ofConfig {}).course Host.none sealing
    let desc := Descriptor.data (.ofWord 4294967295) {}
    let kept := (Request.define ⟨0, 0⟩ .length desc true).outcome Host.none realm
    let copied := (Request.define ⟨1, 0⟩ (.index 2) desc false).outcome Host.none realm
    (ofConfig {}).lawful Host.none sealing = true ∧ (∀ turn ∈ sealing, turn.request.Plain) ∧
      realm.sight.own ⟨0, 0⟩ .length = some (some desc) ∧
      realm.sight.traits ⟨0, 0⟩ = some ⟨false, none,
        some { length := 4294967295, lengthWritable := false, dense := true }⟩ ∧
      kept.1 = .answered (.accepted true) ∧ kept.2.sight = realm.sight ∧
      realm.sight.traits ⟨1, 0⟩ =
        some ⟨true, none, some { length := 0, lengthWritable := true, dense := true }⟩ ∧
      realm.sight.own ⟨1, 0⟩ (.index 2) = some none ∧
      copied.1 = .answered (.accepted true) ∧
      copied.2.sight.own ⟨1, 0⟩ (.index 2) = some (some desc) := by
  intro realm desc kept copied
  have lawful : (ofConfig {}).lawful Host.none sealing = true := by decide +kernel
  have plain : ∀ turn ∈ sealing, turn.request.Plain := by decide
  have own : realm.sight.own ⟨0, 0⟩ .length = some (some desc) := by decide +kernel
  have closed : realm.sight.traits ⟨0, 0⟩ = some ⟨false, none,
      some { length := 4294967295, lengthWritable := false, dense := true }⟩ := by decide +kernel
  have empty : realm.sight.traits ⟨1, 0⟩ =
      some ⟨true, none, some { length := 0, lengthWritable := true, dense := true }⟩ := by
    decide +kernel
  have absent : realm.sight.own ⟨1, 0⟩ (.index 2) = some none := by decide +kernel
  obtain ⟨still, copies⟩ := define_own lawful plain own
  obtain ⟨reply, same⟩ := still true
  obtain ⟨accepted, shown⟩ := copies ⟨1, 0⟩ (.index 2) _ false empty rfl absent
    fun elements index array _ => Or.inl (Option.some.inj array ▸ rfl)
  exact ⟨lawful, plain, own, closed, reply, same, empty, absent, accepted, shown⟩

end Realm

end HiddenClass
