import HiddenClass.Proofs.Application
import HiddenClass.Proofs.Elements.Visible
import HiddenClass.Proofs.Lengths
import HiddenClass.Proofs.Refusal
import HiddenClass.Proofs.Settled
import HiddenClass.Proofs.Within

/-!
Redefining a property that is there already. Whatever kind of object it belongs to and wherever it is
kept, it is validated and merged, and nothing else changes.
-/

namespace HiddenClass

/-! ### Objects -/

namespace Object.Content

variable {content after : Content} {key : Key} {slot : Slot} {desc : Descriptor}
  {grow : Elements.Traits → Elements.Traits}

/-- The property that a program finds. -/
def slot? : Content → Key → Option Slot
  | .ordinary record, key => record.find? key
  | .array view, key =>
    match key.role with
    | .element index => view.visible index
    | .length => some view.lengthSlot
    | .name => view.record.find? key

/-- What an array shows of itself besides its properties. -/
def traits : Content → Option Elements.Traits
  | .ordinary _ => none
  | .array view => some view.traits

section Roles

variable {view : Elements.View}

theorem slot?_element {index : Nat} (role : key.role = .element index) :
    (Content.array view).slot? key = view.visible index := by
  simp only [slot?, role]

theorem slot?_length (role : key.role = .length) :
    (Content.array view).slot? key = some view.lengthSlot := by
  simp only [slot?, role]

theorem slot?_name (role : key.role = .name) :
    (Content.array view).slot? key = view.record.find? key := by
  simp only [slot?, role]

end Roles

theorem slot?_of_traits {elements : Elements.Traits} (traits : content.traits = some elements) :
    content.slot? .length = some elements.lengthSlot := by
  cases content with
  | ordinary record => cases traits
  | array view => exact Option.some.inj traits ▸ rfl

theorem getOwn_eq_slot? (sound : content.Sound) (key : Key) :
    content.getOwn key = (content.slot? key).map Slot.toDescriptor := by
  cases content with
  | ordinary record => rfl
  | array view =>
    cases role : key.role with
    | element index =>
      rw [getOwn_element role, slot?_element role]
      exact Elements.View.Sound.getOwn_visible sound (Key.of_role_element role).2
    | length =>
      rw [getOwn_length role, slot?_length role]
      rfl
    | name =>
      rw [getOwn_name role, slot?_name role]

/-- An object has another property at a key. Nothing else has changed, apart from what the length of
an array may have done. -/
structure Rewritten (content after : Content) (key : Key) (slot : Option Slot)
    (grow : Elements.Traits → Elements.Traits) : Prop where
  slot : after.slot? key = slot
  frame : ∀ other, other ≠ key → (other = .length → content.traits.map grow = content.traits) →
    after.slot? other = content.slot? other
  traits : ∃ dense, after.traits = content.traits.map fun elements => { grow elements with dense }

/-- An array that differs at one of its keys only, and in how long it is. -/
theorem rewritten_array {view moved : Elements.View}
    (visible : ∀ index, .index index ≠ key → moved.visible index = view.visible index)
    (record : ∀ other, other ≠ key → moved.record.find? other = view.record.find? other)
    {dense : Bool} (traits : moved.traits = { grow view.traits with dense }) :
    Rewritten (.array view) (.array moved) key ((Content.array moved).slot? key) grow := by
  refine ⟨rfl, fun other different same => ?_, dense, congrArg some traits⟩
  cases role : other.role with
  | element index =>
    rw [slot?_element role, slot?_element role]
    exact visible index ((Key.of_role_element role).1 ▸ different)
  | length =>
    have grown : grow view.traits = view.traits := Option.some.inj (same (Key.of_role_length role))
    rw [grown] at traits
    rw [slot?_length role, slot?_length role]
    have length : moved.length = view.length := congrArg Elements.Traits.length traits
    have writable : moved.lengthWritable = view.lengthWritable :=
      congrArg Elements.Traits.lengthWritable traits
    unfold Elements.View.lengthSlot
    rw [length, writable]
  | name =>
    rw [slot?_name role, slot?_name role]
    exact record other different

/-- An array with another property under a name. -/
theorem rewritten_record {view : Elements.View} {record : Record} {slot : Option Slot}
    (role : key.role = .name)
    (after : ∀ other, record.find? other = if other = key then slot else view.record.find? other)
    (same : grow view.traits = view.traits) :
    Rewritten (.array view) (.array { view with record }) key slot grow := by
  have kept : ∀ other, other ≠ key → record.find? other = view.record.find? other :=
    fun other different => (after other).trans (if_neg different)
  have traits : Elements.View.traits { view with record } =
      { grow view.traits with dense := view.dense } := by
    rw [same]
    rfl
  have rewritten : Rewritten (.array view) (.array { view with record }) key _ grow :=
    rewritten_array (fun number different => Elements.View.visible_congr rfl (kept _ different)) kept
      traits
  rw [slot?_name role, after, if_pos rfl] at rewritten
  exact rewritten

/-- A property that is found, but for the length of an array, is validated and merged. -/
theorem define_found (sound : content.Sound) (within : content.Within)
    (found : content.slot? key = some slot) (other : content.traits = none ∨ key ≠ .length)
    (given : desc.All Value.Solid) (bound : Nat) (doomed : List Nat) (extensible : Bool) :
    let made := Slot.define (some slot) desc extensible
    (content.define bound doomed key desc extensible).1 = .ok made.1 ∧
      content.Rewritten (content.define bound doomed key desc extensible).2 key made.2 id := by
  intro made
  cases content with
  | ordinary record =>
    obtain ⟨verdict, after⟩ := sound.define_eq key desc extensible
    have before : record.find? key = some slot := found
    rw [before] at verdict after
    refine ⟨congrArg Except.ok verdict, (after key).trans (if_pos rfl), fun other different _ => ?_,
      false, rfl⟩
    exact (after other).trans (if_neg different)
  | array view =>
    have other : key ≠ .length := other.resolve_left (Option.some_ne_none _)
    unfold define
    cases role : key.role with
    | element index =>
      obtain ⟨same, small⟩ := Key.of_role_element role
      rw [slot?_element role] at found
      have inside : index < view.length :=
        within index small (Elements.View.owns_of_visible found)
      obtain ⟨verdict, made, beside⟩ :=
        Elements.View.define_found sound found given small inside bound extensible
      have rewritten : Rewritten (.array view) (.array _) key _ id :=
        rewritten_array
          (fun number different => beside.visible fun equal => different (same ▸ equal ▸ rfl))
          (fun name different => beside.record name (same ▸ different)) (beside.traits rfl)
      rw [slot?_element role, made] at rewritten
      simp only [verdict]
      exact ⟨rfl, rewritten⟩
    | length => exact absurd (Key.of_role_length role) other
    | name =>
      rw [slot?_name role] at found
      have soundRecord : view.record.Sound := Elements.View.Sound.record sound
      obtain ⟨verdict, after⟩ := soundRecord.define_eq key desc extensible
      rw [found] at verdict after
      simp only [verdict]
      exact ⟨rfl, rewritten_record role after rfl⟩

/-- What is found is a property of one type. -/
theorem proper_slot? {P : Value → Prop} (proper : content.Proper P)
    (found : content.slot? key = some slot) : slot.Proper fun _ => True := by
  have weaken : ∀ {other : Slot}, other.Proper P → other.Proper fun _ => True :=
    fun proper => proper.mono fun _ _ => trivial
  cases content with
  | ordinary record => exact weaken (proper key slot found)
  | array view =>
    cases role : key.role with
    | element index =>
      rw [slot?_element role] at found
      cases peeked : view.peek index with
      | some value =>
        rw [Elements.View.visible_of_peek peeked] at found
        exact Option.some.inj found ▸ Slot.proper_plain trivial trivial
      | none =>
        rw [Elements.View.visible_of_absent peeked] at found
        exact weaken (proper.record _ slot found)
    | length =>
      rw [slot?_length role] at found
      rw [← Option.some.inj found]
      exact ⟨trivial, trivial, trivial, rfl, fun _ => ⟨rfl, rfl⟩, fun accessor => by cases accessor⟩
    | name =>
      rw [slot?_name role] at found
      exact weaken (proper.record key slot found)

end Object.Content

theorem Object.View.traits_eq (view : Object.View) : view.traits =
    { extensible := view.extensible, prototype := view.prototype, array := view.content.traits } := by
  obtain ⟨content, extensible, prototype⟩ := view
  cases content <;> rfl

/-! ### Realms -/

namespace Realm

/-- A property of an object has been written. Nothing else has changed, apart from what the length of
an array may have done. -/
structure Sight.Rewritten (before after : Sight) (object : Handle) (key : Key) (desc : Descriptor)
    (grow : Elements.Traits → Elements.Traits) : Prop where
  own : after.own object key = some (some desc)
  frame : ∀ other, other ≠ key →
    (other = .length → ∀ traits elements, before.traits object = some traits →
      traits.array = some elements → grow elements = elements) →
    after.own object other = before.own object other
  length : ∀ traits elements, before.traits object = some traits → traits.array = some elements →
    after.own object .length = some (some (grow elements).lengthSlot.toDescriptor)
  traits : ∃ dense, after.traits object = (before.traits object).map fun traits =>
    { traits with array := traits.array.map fun elements => { grow elements with dense } }
  live : after.live object = before.live object
  others : ∀ other, other ≠ object → before.Alike after other

variable {host : Host} {realm later : Realm} {chart after : Chart} {views : Views}
  {object array : Handle} {view : Object.View} {moved : Object.Content} {key : Key} {slot : Slot}
  {desc : Descriptor} {grow : Elements.Traits → Elements.Traits}

namespace Holds

variable (holds : realm.Holds chart views) (shown : views object = some view)
  (sound : view.content.Sound)
include holds shown sound

theorem sight_slot? (key : Key) :
    realm.sight.own object key = some ((view.content.slot? key).map Slot.toDescriptor) := by
  rw [holds.sight_own shown]
  exact congrArg some (Object.Content.getOwn_eq_slot? sound key)

theorem rewritten (soundMoved : moved.Sound)
    (rewritten : view.content.Rewritten moved key (some slot) grow)
    (held : later.Holds after (views.update object { view with content := moved })) :
    realm.sight.Rewritten later.sight object key slot.toDescriptor grow := by
  have shownMoved := Views.update_same views object { view with content := moved }
  have known : ∀ {traits elements}, realm.sight.traits object = some traits →
      traits.array = some elements → view.content.traits = some elements := by
    intro traits elements seen kind
    rw [holds.sight_traits shown, Object.View.traits_eq] at seen
    exact (congrArg Object.Traits.array (Option.some.inj seen)).trans kind
  obtain ⟨dense, grown⟩ := rewritten.traits
  refine ⟨?_, fun other different same => ?_, fun traits elements seen kind => ?_,
    ⟨dense, ?_⟩, ?_, fun other different => ?_⟩
  · rw [held.sight_slot? shownMoved soundMoved, rewritten.slot]
    rfl
  · rw [held.sight_slot? shownMoved soundMoved, holds.sight_slot? shown sound,
      rewritten.frame other different fun isLength => ?_]
    cases array : view.content.traits with
    | none => rfl
    | some elements =>
      have seen := holds.sight_traits shown
      rw [Object.View.traits_eq] at seen
      exact congrArg some (same isLength _ elements seen array)
  · rw [known seen kind] at grown
    rw [held.sight_slot? shownMoved soundMoved, Object.Content.slot?_of_traits grown]
    rfl
  · rw [held.sight_traits shownMoved, holds.sight_traits shown, Object.View.traits_eq,
      Object.View.traits_eq, Option.map_some, grown]
  · exact (held.live_iff.mp ⟨_, shownMoved⟩).trans (holds.live_iff.mp ⟨_, shown⟩).symm
  · exact holds.alike held ((Views.update_apply ..).trans (if_neg different))

/-- A property that is found is redefined as if it were made again from what it shows. -/
theorem redefine (host : Host) (valid : views.Valid) (within : view.content.Within)
    {current : Descriptor} (own : realm.sight.own object key = some (some current))
    (other : view.content.traits = none ∨ key ≠ .length) (given : desc.All Value.Solid)
    (raises : Bool) :
    let outcome := (Request.define object key desc raises).outcome host realm
    let slot := Slot.ofDescriptor current
    outcome.1 = .ofVerdict raises (.ok (slot.validate desc)) ∧
      (slot.validate desc = .accepted → realm.sight.Rewritten outcome.2.sight object key
        (slot.merge desc).toDescriptor id) ∧
      (slot.validate desc ≠ .accepted → outcome.2.sight = realm.sight) := by
  intro outcome slot
  rw [holds.sight_slot? shown sound, Option.some.injEq] at own
  obtain ⟨kept, found, rfl⟩ := Option.map_eq_some_iff.mp own
  have proper := Object.Content.proper_slot? (valid.content object view shown) found
  obtain ⟨after, bound, doomed, _, reply, held⟩ :=
    holds.outcome_define host shown sound key desc raises
  obtain ⟨verdict, rewritten⟩ :=
    Object.Content.define_found sound within found other given bound doomed view.extensible
  have soundMoved := sound.define bound doomed key desc view.extensible
  have answered : (view.define bound doomed key desc).1 =
      .ok (Slot.define (some kept) desc view.extensible).1 := verdict
  rw [Slot.validate_ofDescriptor proper, Slot.merge_ofDescriptor proper]
  cases validated : kept.validate desc with
  | accepted =>
    rw [Slot.define_of_accepted validated] at answered rewritten
    rw [answered] at reply
    exact ⟨reply, fun _ => holds.rewritten shown sound soundMoved rewritten held,
      fun refused => absurd rfl refused⟩
  | rejected reason =>
    rw [Slot.define_of_rejected validated] at answered
    rw [answered] at reply
    refine ⟨reply, fun accepted => (by cases accepted), fun _ => ?_⟩
    have refused : outcome.1 ≠ .answered (.accepted true) := by
      rw [reply]
      cases raises <;> simp [Reply.ofVerdict, Verdict.report]
    rcases holds.refused_define shown sound refused with ⟨_, same⟩ | ⟨named, array, _, _, _, kind, _⟩
    · exact holds.sight_eq same
    · rw [kind] at other
      exact absurd named (other.resolve_left (Option.some_ne_none _))

end Holds

/-- At any moment of a course with live handles, a definition at an index where an array has a property
already is validated against the property that it shows and, if it is accepted, merged with it. Which
container the property is kept in before and afterwards makes no difference, nor does it matter whether
the array may be extended or its length changed. A turn that overflows ends the program, so none has
before; by `uninterrupted_ofConfig` that is so whenever the keys of the course are interned. -/
theorem redefine_element {config : Config} {turns : List Turn} {index : Nat} {current : Descriptor}
    (lawful : (ofConfig config).lawful host turns = true)
    (fits : (ofConfig config).uninterrupted host turns = true)
    (own : ((ofConfig config).course host turns).sight.own array (.index index) =
      some (some current))
    (given : desc.All Value.Solid) (raises : Bool) :
    let realm := (ofConfig config).course host turns
    let outcome := (Request.define array (.index index) desc raises).outcome host realm
    let slot := Slot.ofDescriptor current
    outcome.1 = .ofVerdict raises (.ok (slot.validate desc)) ∧
      (slot.validate desc = .accepted → realm.sight.Rewritten outcome.2.sight array (.index index)
        (slot.merge desc).toDescriptor id) ∧
      (slot.validate desc ≠ .accepted → outcome.2.sight = realm.sight) := by
  obtain ⟨chart, views, holds, valid, within⟩ := within_course lawful fits
  obtain ⟨view, shown⟩ := holds.shown_of_own own
  exact holds.redefine shown (valid.sound array view shown) host valid (within array view shown) own
    (Or.inr Key.noConfusion) given raises

/-- An array with elements in the vector, in the map and in the store, which may not be extended and
whose length is read-only. -/
def settledArray : List Turn :=
  let array : Handle := ⟨0, 0⟩
  let fixing := Descriptor.dataAttributes { enumerableAbsent := true, configurableAbsent := true }
  obstructing ++ [.make (.define array .length fixing true), .make (.preventExtensions array)]

/-- An element of the map moves to the store, and one of the store is not changed. -/
theorem redefine_element_moved :
    let config : Config := { maxVectorSize := 4 }
    let realm := (ofConfig config).course Host.none settledArray
    let accessor := Descriptor.accessor (some (.native ⟨"get"⟩)) none
      { configurable := true, enumerableAbsent := true }
    let change := Descriptor.data (.int 6) .valueOnly
    let moved := (Request.define ⟨0, 0⟩ (.index 7) accessor true).outcome Host.none realm
    let kept := (Request.define ⟨0, 0⟩ (.index 5) change false).outcome Host.none realm
    (ofConfig config).lawful Host.none settledArray = true ∧
      (ofConfig config).uninterrupted Host.none settledArray = true ∧
      realm.sight.traits ⟨0, 0⟩ = some
        ⟨false, none, some { length := 10, lengthWritable := false, dense := false }⟩ ∧
      realm.sight.own ⟨0, 0⟩ (.index 7) = some (some (.plain (.int 7))) ∧
      accessor.All Value.Solid ∧ moved.1 = .answered (.accepted true) ∧
      realm.sight.Rewritten moved.2.sight ⟨0, 0⟩ (.index 7)
        (.accessor (some (.native ⟨"get"⟩)) (some .undefined)
          { enumerable := true, configurable := true }) id ∧
      realm.sight.own ⟨0, 0⟩ (.index 5) = some (some (.data (.int 5) { enumerable := true })) ∧
      change.All Value.Solid ∧ kept.1 = .answered (.accepted false) ∧
      kept.2.sight = realm.sight := by
  intro config realm accessor change moved kept
  have lawful : (ofConfig config).lawful Host.none settledArray = true := by decide +kernel
  have seen : realm.sight.traits ⟨0, 0⟩ = some
      ⟨false, none, some { length := 10, lengthWritable := false, dense := false }⟩ := by
    decide +kernel
  have seven : realm.sight.own ⟨0, 0⟩ (.index 7) = some (some (.plain (.int 7))) := by
    decide +kernel
  have five : realm.sight.own ⟨0, 0⟩ (.index 5) =
      some (some (.data (.int 5) { enumerable := true })) := by decide +kernel
  have solid : accessor.All Value.Solid := by decide
  have solidChange : change.All Value.Solid := by decide
  have fits : (ofConfig config).uninterrupted Host.none settledArray = true :=
    uninterrupted_ofConfig lawful (by decide)
  obtain ⟨reply, rewritten, _⟩ := redefine_element lawful fits seven solid true
  obtain ⟨answer, _, unchanged⟩ := redefine_element lawful fits five solidChange false
  exact ⟨lawful, fits, seen, seven, solid, reply, rewritten (by decide), five, solidChange, answer,
    unchanged (by decide)⟩

end Realm

end HiddenClass
