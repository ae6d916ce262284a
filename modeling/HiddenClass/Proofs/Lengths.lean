import HiddenClass.Proofs.Elements.Shortening
import HiddenClass.Proofs.Permanence
import HiddenClass.Proofs.Realm.Sight
import HiddenClass.Proofs.Settled

/-!
The length of an array, as one of its own properties. A definition of it with a value does one of four
things, and which of them is decided by the value, the old length and the properties that stand between
the two.
-/

namespace HiddenClass

/-- The property that the length of an array is. -/
def Elements.Traits.lengthSlot (traits : Traits) : Slot :=
  { value := .ofWord traits.length, flags := .ofLength traits.lengthWritable }

namespace Realm

namespace Sight

/-- The array has a property at the index that cannot be deleted. -/
def Pinned (sight : Sight) (array : Handle) (index : Nat) : Prop :=
  ∃ desc, sight.own array (.index index) = some (some desc) ∧ desc.isConfigurable = false

/-- An array has another length, and no index from there on. Nothing else has changed. -/
structure Resized (before after : Sight) (array : Handle) (later : Elements.Traits) : Prop where
  length : after.own array .length = some (some later.lengthSlot.toDescriptor)
  index : ∀ index, after.own array (.index index) =
    if index < later.length then before.own array (.index index) else some none
  name : ∀ id, Key.named id ≠ .length →
    after.own array (.named id) = before.own array (.named id)
  traits : after.traits array = (before.traits array).map ({ · with array := some later })
  live : after.live array = before.live array
  others : ∀ object, object ≠ array → before.Alike after object

/-- What becomes of a definition that gives the length of an array a value. -/
structure DefinesLength (before : Sight) (array : Handle) (elements : Elements.Traits)
    (desc : Descriptor) (raises : Bool) (reply : Reply) (after : Sight) : Prop where
  /-- The value is no length. -/
  invalid : (∀ n : Nat, n < 4294967296 → desc.value.toNumber.toInt? ≠ some (n : Int)) →
    reply = .stopped (.error .invalidLength) ∧ after = before
  /-- The length is not lowered. It is treated as any other property, and no element changes. -/
  kept : ∀ n : Nat, desc.value.toNumber.toInt? = some (n : Int) → n < 4294967296 →
    elements.length ≤ n →
    let wanted := Descriptor.data (.ofWord n) desc.attributes
    let verdict := elements.lengthSlot.validate wanted
    reply = .ofVerdict raises (.ok verdict) ∧
      (verdict = .accepted →
        let merged := elements.lengthSlot.merge wanted
        let later := { elements with length := n, lengthWritable := merged.flags.writable }
        later.lengthSlot = merged ∧ before.Resized after array later ∧
          ∀ index, after.own array (.index index) = before.own array (.index index)) ∧
      (verdict ≠ .accepted → after = before)
  /-- The length would be lowered, but it is read-only or asked to become what it cannot be. -/
  barred : ∀ n : Nat, desc.value.toNumber.toInt? = some (n : Int) → n < elements.length →
    elements.lengthWritable = false ∨ desc.isEnumerable = true ∨ desc.isConfigurable = true →
    (∃ reason, reply = .ofVerdict raises (.ok (.rejected reason))) ∧ after = before
  /-- The length is lowered, down to the last property that cannot be deleted. -/
  lowered : ∀ n : Nat, desc.value.toNumber.toInt? = some (n : Int) → n < elements.length →
    elements.lengthWritable = true → desc.isEnumerable = false → desc.isConfigurable = false →
    ∃ verdict last, Elements.Shortens (before.Pinned array) n elements.length verdict last ∧
      reply = .ofVerdict raises (.ok verdict) ∧
      before.Resized after array
        { elements with
          length := last
          lengthWritable := desc.attributes.writableAbsent || desc.isWritable }

end Sight

variable {host : Host} {realm later : Realm} {chart after : Chart} {views : Views} {array : Handle}
  {turns : List Turn} {traits : Object.Traits} {elements : Elements.Traits} {desc : Descriptor}

/-! ### Arrays and their views -/

section Arrays

variable {content moved : Elements.View} {extensible : Bool} {prototype : Option Handle}

namespace Holds

variable (holds : realm.Holds chart views)
  (shown : views array = some { content := .array content, extensible, prototype })
  (sound : content.Sound)
include holds shown sound

theorem sight_index (solid : content.Proper Value.Solid) (index : Nat) :
    realm.sight.own array (.index index) = some ((content.property index).map Slot.toDescriptor) := by
  have whole : content.element index ≠ some .hole := fun held => solid.element index .hole held rfl
  rw [holds.sight_own shown]
  exact congrArg some (Object.Content.getOwn_index sound whole)

theorem pinned_iff (solid : content.Proper Value.Solid) (index : Nat) :
    realm.sight.Pinned array index ↔ content.fixed index = true := by
  unfold Sight.Pinned Elements.View.fixed
  rw [holds.sight_index shown sound solid]
  cases content.property index with
  | none => simp
  | some slot => simp [Slot.configurable_toDescriptor]

/-- When the view of an array is cut, the array is resized and nothing else has changed. -/
theorem resized (solid : content.Proper Value.Solid) {limit : Nat} {writable : Bool}
    (cut : content.Cut limit writable moved) (soundMoved : moved.Sound)
    (solidMoved : moved.Proper Value.Solid)
    (held : later.Holds after
      (views.update array { content := .array moved, extensible, prototype })) :
    realm.sight.Resized later.sight array
      { content.traits with length := limit, lengthWritable := writable } := by
  have shownMoved := Views.update_same views array { content := .array moved, extensible, prototype }
  refine ⟨?_, fun index => ?_, fun id different => ?_, ?_, ?_, fun object different => ?_⟩
  · rw [held.sight_own shownMoved, Object.View.getOwn, Object.Content.getOwn_length (by rfl)]
    rw [cut.lengthSlot]
    rfl
  · rw [held.sight_index shownMoved soundMoved solidMoved, holds.sight_index shown sound solid,
      cut.property index]
    split <;> rfl
  · rw [held.sight_own shownMoved, holds.sight_own shown, Object.View.getOwn, Object.View.getOwn,
      Object.Content.getOwn_named different, Object.Content.getOwn_named different, cut.name]
  · rw [held.sight_traits shownMoved, holds.sight_traits shown, Option.map_some]
    unfold Object.View.traits Elements.View.traits
    simp only [cut.length, cut.lengthWritable, cut.dense]
  · exact (held.live_iff.mp ⟨_, shownMoved⟩).trans (holds.live_iff.mp ⟨_, shown⟩).symm
  · exact holds.alike held ((Views.update_apply ..).trans (if_neg different))

/-- When an array is not made shorter, all its indices stay. -/
theorem index_of_longer (solid : content.Proper Value.Solid) (bounded : content.Bounded)
    {traits : Elements.Traits} (changed : realm.sight.Resized later.sight array traits)
    (longer : content.length ≤ traits.length) (index : Nat) :
    later.sight.own array (.index index) = realm.sight.own array (.index index) := by
  rw [changed.index index]
  by_cases below : index < traits.length
  · exact if_pos below
  · have absent := bounded.property_eq_none (longer.trans (Nat.not_lt.mp below))
    rw [holds.sight_index shown sound solid, absent]
    exact if_neg below

/-- A definition of the length is answered by the elements alone. -/
theorem outcome_defineLength (host : Host) (desc : Descriptor) (raises : Bool) :
    ∃ (after : Chart) (doomed : List Nat),
      (∀ length, Elements.lengthOf? desc.value = some length →
        content.Doomed length content.length doomed) ∧
      ((Request.define array .length desc raises).outcome host realm).1 =
        .ofVerdict raises (content.defineLength doomed desc).1 ∧
      ((Request.define array .length desc raises).outcome host realm).2.Holds after
        (views.update array
          { content := .array (content.defineLength doomed desc).2, extensible, prototype }) := by
  obtain ⟨after, bound, doomed, listed, reply, held⟩ :=
    holds.outcome_define host shown sound .length desc raises
  exact ⟨after, doomed, fun length => listed length rfl, reply, held⟩

end Holds

end Arrays

/-- In every state that plain requests with live handles lead to, and whatever the tunables are, a
definition that gives the length of an array a value does what it is to do. -/
theorem defineLength_exact {config : Config} (lawful : (ofConfig config).lawful host turns = true)
    (plain : ∀ turn ∈ turns, turn.request.Plain)
    (seen : ((ofConfig config).course host turns).sight.traits array = some traits)
    (kind : traits.array = some elements) (given : desc.lacksValue = false)
    (coherent : desc.attributes.Coherent) (raises : Bool) :
    let realm := (ofConfig config).course host turns
    let outcome := (Request.define array .length desc raises).outcome host realm
    realm.sight.DefinesLength array elements desc raises outcome.1 outcome.2.sight := by
  intro realm outcome
  obtain ⟨chart, views, holds, valid, settled⟩ := settled_course lawful plain
  obtain ⟨content, extensible, prototype, shown, rfl, _⟩ := holds.array_of_traits seen kind
  have sound : content.Sound := valid.sound array _ shown
  obtain ⟨bounded, solid⟩ : content.Settled := settled array _ shown
  obtain ⟨after, doomed, listed, reply, held⟩ :=
    holds.outcome_defineLength shown sound host desc raises
  have unchanged : (content.defineLength doomed desc).2 = content →
      outcome.2.sight = realm.sight := by
    intro same
    rw [same, Holds.update_self views shown] at held
    exact holds.sight_eq held
  have resized : ∀ {limit writable},
      content.Cut limit writable (content.defineLength doomed desc).2 →
      realm.sight.Resized outcome.2.sight array
        { content.traits with length := limit, lengthWritable := writable } :=
    fun cut => holds.resized shown sound solid cut (sound.defineLength doomed desc)
      (solid.defineLength sound doomed desc) held
  have assigned : ∀ {n : Nat}, Elements.lengthOf? desc.value = some n →
      content.defineLength doomed desc = content.assignLength doomed n desc.attributes :=
    fun sought => Elements.View.defineLength_of_length given sought doomed content
  refine ⟨fun none => ?_, fun n whole word longer => ?_, fun n whole shorter barred => ?_,
    fun n whole shorter writable enumerable configurable => ?_⟩
  · have sought := Elements.lengthOf?_eq_none_iff.mpr none
    have stopped := Elements.View.defineLength_of_none given sought doomed content
    rw [stopped] at reply
    exact ⟨reply, unchanged (by rw [stopped])⟩
  · have defined := assigned (Elements.lengthOf?_eq_some_iff.mpr ⟨whole, word⟩)
    obtain ⟨verdict, accepts, refuses⟩ :=
      Elements.View.assignLength_longer bounded coherent word longer doomed
    rw [defined, verdict] at reply
    rw [defined] at unchanged resized
    refine ⟨reply, fun accepted => ?_, fun refused => unchanged (refuses refused)⟩
    obtain ⟨merged, cut⟩ := accepts accepted
    have changed := resized cut
    refine ⟨?_, changed, holds.index_of_longer shown sound solid bounded changed longer⟩
    exact cut.lengthSlot.symm.trans merged
  · have word := shorter.trans bounded.word
    have defined := assigned (Elements.lengthOf?_eq_some_iff.mpr ⟨whole, word⟩)
    have hindered : content.lengthWritable = false ∨
        (desc.attributes.enumerable || desc.attributes.configurable) = true :=
      barred.imp_right (Bool.or_eq_true _ _).mpr
    obtain ⟨reason, rejected⟩ :=
      Elements.View.assignLength_barred coherent shorter hindered doomed
    rw [defined, rejected] at reply unchanged
    exact ⟨⟨reason, reply⟩, unchanged rfl⟩
  · have word := shorter.trans bounded.word
    have sought := Elements.lengthOf?_eq_some_iff.mpr ⟨whole, word⟩
    have defined := assigned sought
    have unasked : (desc.attributes.enumerable || desc.attributes.configurable) = false :=
      Bool.or_eq_false_iff.mpr ⟨enumerable, configurable⟩
    obtain ⟨verdict, last, answered, shortens, cut⟩ := Elements.View.assignLength_shorter sound bounded
      (listed n sought) shorter writable unasked
    have same : realm.sight.Pinned array = fun index => content.fixed index = true :=
      funext fun index => propext (holds.pinned_iff shown sound solid index)
    rw [defined] at reply resized
    rw [answered] at reply
    exact ⟨verdict, last, same ▸ shortens, reply, resized cut⟩

/-- An array with elements in the vector and in the map, one property in its store that cannot be
deleted and another one above it that can. -/
def obstructing : List Turn :=
  let array : Handle := ⟨0, 0⟩
  [.make (.newArray 10), .make (.put array (.index 0) (.int 0) true),
    .make (.put array (.index 2) (.int 2) true), .make (.put array (.index 7) (.int 7) true),
    .make (.define array (.index 5) (.data (.int 5) { enumerable := true }) true),
    .make (.define array (.index 8) (.data (.int 8) { configurable := true }) true)]

/-- The length two, written as a text and to be read-only. -/
def shortening : Descriptor :=
  .data (.text "2") { enumerableAbsent := true, configurableAbsent := true }

theorem defineLength_exact_obstructed :
    let realm := (ofConfig { maxVectorSize := 4 }).course Host.none obstructing
    let elements : Elements.Traits := { length := 10, lengthWritable := true, dense := false }
    let outcome := (Request.define ⟨0, 0⟩ .length shortening false).outcome Host.none realm
    (ofConfig { maxVectorSize := 4 }).lawful Host.none obstructing = true ∧
      (∀ turn ∈ obstructing, turn.request.Plain) ∧
      realm.sight.traits ⟨0, 0⟩ = some ⟨true, none, some elements⟩ ∧
      shortening.lacksValue = false ∧ shortening.attributes.Coherent ∧
      realm.sight.DefinesLength ⟨0, 0⟩ elements shortening false outcome.1 outcome.2.sight ∧
      ∃ verdict last, Elements.Shortens (realm.sight.Pinned ⟨0, 0⟩) 2 10 verdict last ∧
        outcome.1 = .ofVerdict false (.ok verdict) ∧
        realm.sight.Resized outcome.2.sight ⟨0, 0⟩
          { elements with length := last, lengthWritable := false } := by
  intro realm elements outcome
  have lawful : (ofConfig { maxVectorSize := 4 }).lawful Host.none obstructing = true := by
    decide +kernel
  have plain : ∀ turn ∈ obstructing, turn.request.Plain := by decide
  have seen : realm.sight.traits ⟨0, 0⟩ = some ⟨true, none, some elements⟩ := by decide +kernel
  have coherent : shortening.attributes.Coherent := ⟨by decide, by decide, by decide⟩
  have two : shortening.value.toNumber.toInt? = some ((2 : Nat) : Int) := by decide +kernel
  have defines := defineLength_exact lawful plain seen rfl rfl coherent false
  exact ⟨lawful, plain, seen, rfl, coherent, defines,
    defines.lowered 2 two (by decide) rfl rfl rfl⟩

/-- The array is cut off above the property that stays, and its length is read-only all the same. -/
example :
    let realm := (ofConfig { maxVectorSize := 4 }).course Host.none obstructing
    let outcome := (Request.define ⟨0, 0⟩ .length shortening false).outcome Host.none realm
    outcome.1 = .answered (.accepted false) ∧
      outcome.2.sight.traits ⟨0, 0⟩ =
        some ⟨true, none, some { length := 6, lengthWritable := false, dense := false }⟩ ∧
      outcome.2.sight.keys ⟨0, 0⟩ .all = some [.length, .index 0, .index 2, .index 5] := by
  decide +kernel

end Realm

end HiddenClass
