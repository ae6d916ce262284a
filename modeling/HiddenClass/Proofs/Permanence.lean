import HiddenClass.Proofs.Evolution

/-!
Properties that are not configurable are permanent. Whatever is done to an object later, or to the
realm around it, such a property stays there and keeps what it could not lose.
-/

namespace HiddenClass

variable {P : Descriptor → Prop} {Q : Value → Prop} {key : Key} {desc : Descriptor}

theorem Slot.configurable_toDescriptor (slot : Slot) :
    slot.toDescriptor.isConfigurable = slot.flags.configurable := by
  unfold Slot.toDescriptor
  split <;> rfl

/-- The length of an array is never configurable, and endures. -/
theorem Elements.View.Evolves.lengthSlot {before after : Elements.View}
    (evolves : before.Evolves P after) : before.lengthSlot.Endures after.lengthSlot where
  configurable := rfl
  enumerable := rfl
  data := rfl
  accessor := rfl
  functions := fun accessor => absurd accessor Bool.false_ne_true
  writable := by
    intro writable
    by_contra readOnly
    have stays := (evolves.length (Bool.eq_false_iff.mpr readOnly)).2
    exact Bool.false_ne_true (stays.symm.trans writable)
  value := by
    intro _ readOnly
    have same := (evolves.length readOnly).1
    show (Value.ofWord after.length).sameValue (Value.ofWord before.length) = true
    rw [same]
    apply Value.sameValue_refl

namespace Object.Content

variable {before after : Content} {array : Elements.View}

/-- The properties of an array that are not configurable are its length and stored ones. -/
theorem stored_of_fixed (own : (Content.array array).getOwn key = some desc)
    (fixed : desc.isConfigurable = false) :
    (∃ slot, array.record.find? key = some slot ∧ slot.toDescriptor = desc) ∨
      (key = Key.length ∧ array.lengthSlot.toDescriptor = desc) := by
  cases role : key.role with
  | element index =>
    rw [getOwn_element role] at own
    cases peeked : array.peek index with
    | some value =>
      -- an element that is not stored as a property is a plain one
      rw [Elements.View.getOwn_of_peek peeked] at own
      cases own
      cases fixed
    | none =>
      rw [Elements.View.getOwn_of_absent peeked] at own
      by_cases dense : array.dense = true
      · rw [if_pos dense] at own
        cases own
      · rw [if_neg dense] at own
        rw [(Key.of_role_element role).1]
        exact Or.inl (Option.map_eq_some_iff.mp own)
  | length =>
    rw [getOwn_length role] at own
    exact Or.inr ⟨Key.of_role_length role, Option.some.inj own⟩
  | name =>
    rw [getOwn_name role] at own
    exact Or.inl (Option.map_eq_some_iff.mp own)

/-- A property that is not configurable is there in whatever becomes of the object. -/
theorem Evolves.endures (evolves : before.Evolves P after) (sound : before.Sound)
    (proper : before.Proper Q) (soundAfter : after.Sound) (own : before.getOwn key = some desc)
    (fixed : desc.isConfigurable = false) :
    ∃ later, after.getOwn key = some later ∧ desc.Endures later := by
  have stored : ∀ {record later : Record} {slot : Slot}, record.Sound → record.Proper Q →
      record.Evolves P later → record.find? key = some slot → slot.toDescriptor = desc →
      ∃ last, later.find? key = some last ∧ desc.Endures last.toDescriptor := by
    intro record later slot recordSound recordProper recordEvolves found same
    have type := (recordProper key slot found).type
    rw [← same, Slot.configurable_toDescriptor] at fixed
    obtain ⟨last, present, endures⟩ := recordEvolves.endures recordSound found type fixed
    exact ⟨last, present, same ▸ endures.toDescriptor type⟩
  cases before with
  | ordinary record =>
    cases after with
    | array view => exact evolves.elim
    | ordinary later =>
      obtain ⟨slot, found, same⟩ := Option.map_eq_some_iff.mp own
      obtain ⟨last, present, endures⟩ := stored sound proper evolves found same
      exact ⟨_, congrArg (Option.map Slot.toDescriptor) present, endures⟩
  | array view =>
    cases after with
    | ordinary later => exact evolves.elim
    | array later =>
      rcases stored_of_fixed own fixed with ⟨slot, found, same⟩ | ⟨rfl, rfl⟩
      · obtain ⟨last, present, endures⟩ :=
          stored sound.record proper.record evolves.record found same
        exact ⟨_, getOwn_of_stored soundAfter present, endures⟩
      · have endures := Elements.View.Evolves.lengthSlot evolves
        exact ⟨_, getOwn_length (by rfl), endures.toDescriptor rfl⟩

end Object.Content

namespace Realm

variable {realm : Realm} {chart : Chart} {views : Views} {object : Handle} {view : Object.View}
  {host : Host} {turns later : List Turn}

/-- An object that is not freed in a course evolves. -/
theorem Holds.evolve_course (holds : realm.Holds chart views) (valid : views.Valid)
    (shown : views object = some view) (lawful : realm.lawful host later = true)
    (survives : realm.survives host object later = true) :
    ∃ (last : Chart) (seen : Views) (moved : Object.View),
      (realm.course host later).Holds last seen ∧ seen.Valid ∧ seen object = some moved ∧
        view.content.Evolves (fun _ => True) moved.content := by
  induction later generalizing realm chart views view with
  | nil => exact ⟨chart, views, view, holds, valid, shown, .refl view.content⟩
  | cons turn rest ih =>
    obtain ⟨lawfulTurn, lawfulRest⟩ := lawful_cons.mp lawful
    obtain ⟨live, survivesRest⟩ := survives_cons.mp survives
    obtain ⟨between, seen, held, validBetween, evolve⟩ :=
      holds.evolve valid host lawfulTurn (fun _ => trivial) (fun _ => trivial)
        fun _ _ _ _ _ => trivial
    obtain ⟨moved, shownBetween⟩ := held.live_iff.mpr live
    obtain ⟨last, final, finalView, heldLast, validLast, shownLast, evolves⟩ :=
      ih held validBetween shownBetween lawfulRest survivesRest
    rcases evolve object moved shownBetween with ⟨absent, _⟩ | ⟨before, shownBefore, first⟩
    · rw [shown] at absent
      cases absent
    · rw [shown] at shownBefore
      cases shownBefore
      exact ⟨last, final, finalView, heldLast, validLast, shownLast, first.trans evolves⟩

/-- At any moment of a course, an own property that is not configurable is permanent: as long as the
object is not freed, it is there with what it could not lose. The handles that are passed are live, then
and later. A root of a collection may be gone, as long as it takes the place of no live object. -/
theorem getOwn_endures {config : Config}
    (lawful : (ofConfig config).lawful host (turns ++ later) = true)
    (own : ((Request.getOwn object key).outcome host ((ofConfig config).course host turns)).1 =
      .answered (.descriptor (some desc)))
    (fixed : desc.isConfigurable = false)
    (survives : ((ofConfig config).course host turns).survives host object later = true) :
    ∃ last, ((Request.getOwn object key).outcome host
        ((ofConfig config).course host (turns ++ later))).1 = .answered (.descriptor (some last)) ∧
      desc.Endures last := by
  obtain ⟨lawfulFirst, lawfulLater⟩ := lawful_append.mp lawful
  obtain ⟨chart, views, holds, valid⟩ := holds_course lawfulFirst
  obtain ⟨view, shown⟩ := holds.live_iff.mpr (Request.live_of_answered own)
  obtain ⟨_, reply, _⟩ := holds.outcome_getOwn host shown key
  rw [reply] at own
  have ownView : view.content.getOwn key = some desc := by
    injection own with answer
    injection answer
  obtain ⟨last, seen, moved, held, validLast, shownLast, evolves⟩ :=
    holds.evolve_course valid shown lawfulLater survives
  obtain ⟨final, present, endures⟩ := evolves.endures (valid.sound object view shown)
    (valid.content object view shown) (validLast.sound object moved shownLast) ownView fixed
  obtain ⟨_, replyLast, _⟩ := held.outcome_getOwn host shownLast key
  apply Exists.intro final
  rw [course_append, replyLast, Object.View.getOwn, present]
  exact ⟨rfl, endures⟩

/-- An array with a pinned, read-only element among plain ones. -/
def pinning : List Turn :=
  [.make (.newArray 4), .make (.put ⟨0, 0⟩ (.index 3) (.text "last") true),
    .make (.define ⟨0, 0⟩ (.index 1) (.data (.int 7) { enumerable := true }) true)]

/-- The array is cut short, written to and frozen in all the ways there are, and outlives two
collections, one of them with a root that is gone. -/
def assailing : List Turn :=
  let array : Handle := ⟨0, 0⟩
  [.make (.define array .length (.data (.int 0) {}) false), .make (.put array (.index 1) .null false),
    .make (.delete array (.index 1) false), .make (.newObject (some array)),
    .make (.collect [array]), .make (.makeUnique array), .make (.makeTransitionable array),
    .make (.define array (.index 1) (.accessor none none { configurable := true }) false),
    .make (.preventExtensions array), .make (.collect [⟨1, 0⟩, array])]

theorem getOwn_endures_assailed :
    (ofConfig {}).lawful Host.none (pinning ++ assailing) = true ∧
      ((Request.getOwn ⟨0, 0⟩ (.index 1)).outcome Host.none
        ((ofConfig {}).course Host.none pinning)).1 =
        .answered (.descriptor (some (.data (.int 7) { enumerable := true }))) ∧
      ((ofConfig {}).course Host.none pinning).survives Host.none ⟨0, 0⟩ assailing = true ∧
      ∃ last, ((Request.getOwn ⟨0, 0⟩ (.index 1)).outcome Host.none
          ((ofConfig {}).course Host.none (pinning ++ assailing))).1 =
          .answered (.descriptor (some last)) ∧
        (Descriptor.data (.int 7) { enumerable := true }).Endures last :=
  have lawful : (ofConfig {}).lawful Host.none (pinning ++ assailing) = true := by decide +kernel
  have own : ((Request.getOwn ⟨0, 0⟩ (.index 1)).outcome Host.none
      ((ofConfig {}).course Host.none pinning)).1 =
      .answered (.descriptor (some (.data (.int 7) { enumerable := true }))) := by decide +kernel
  have survives : ((ofConfig {}).course Host.none pinning).survives Host.none ⟨0, 0⟩ assailing =
      true := by decide +kernel
  ⟨lawful, own, survives, getOwn_endures lawful own rfl survives⟩

/-- An object that has a shape of its own, with a property that cannot be deleted, in the place of one
that was freed. -/
def shadowable : List Turn :=
  [.make (.newObject none), .make (.collect []), .make (.newUniqueObject none), .make (.intern "x"),
    .make (.define ⟨0, 1⟩ (.named 1) (.data (.int 1) { writable := true, enumerable := true }) true)]

/-- A collection that is given the handle of the freed object in front keeps the one in its place but
not the shape of it, and the property cannot be found any more. -/
theorem getOwn_endures_not_shadowed :
    let object : Handle := ⟨0, 1⟩
    let shadowing : List Turn := [.make (.collect [⟨0, 0⟩, object])]
    let pinned := Descriptor.data (.int 1) { writable := true, enumerable := true }
    (ofConfig {}).lawful Host.none shadowable = true ∧
      ((Request.getOwn object (.named 1)).outcome Host.none
        ((ofConfig {}).course Host.none shadowable)).1 = .answered (.descriptor (some pinned)) ∧
      pinned.isConfigurable = false ∧
      ((ofConfig {}).course Host.none shadowable).survives Host.none object shadowing = true ∧
      ((Request.getOwn object (.named 1)).outcome Host.none
        ((ofConfig {}).course Host.none (shadowable ++ shadowing))).1 = .stopped (.stale ⟨2, 0⟩) ∧
      ¬∀ (config : Config) (turns later : List Turn) (object : Handle) (key : Key) (desc : Descriptor),
        (ofConfig config).lawful Host.none turns = true →
        ((Request.getOwn object key).outcome Host.none ((ofConfig config).course Host.none turns)).1 =
          .answered (.descriptor (some desc)) →
        desc.isConfigurable = false →
        ((ofConfig config).course Host.none turns).survives Host.none object later = true →
        ∃ last, ((Request.getOwn object key).outcome Host.none
            ((ofConfig config).course Host.none (turns ++ later))).1 =
            .answered (.descriptor (some last)) ∧ desc.Endures last := by
  intro object shadowing pinned
  have lawful : (ofConfig {}).lawful Host.none shadowable = true := by decide +kernel
  have own : ((Request.getOwn object (.named 1)).outcome Host.none
      ((ofConfig {}).course Host.none shadowable)).1 = .answered (.descriptor (some pinned)) := by
    decide +kernel
  have survives : ((ofConfig {}).course Host.none shadowable).survives Host.none object shadowing =
      true := by decide +kernel
  have stopped : ((Request.getOwn object (.named 1)).outcome Host.none
      ((ofConfig {}).course Host.none (shadowable ++ shadowing))).1 = .stopped (.stale ⟨2, 0⟩) := by
    decide +kernel
  refine ⟨lawful, own, rfl, survives, stopped, fun permanent => ?_⟩
  obtain ⟨last, answered, _⟩ :=
    permanent {} shadowable shadowing object (.named 1) pinned lawful own rfl survives
  cases stopped.symm.trans answered

end Realm

end HiddenClass
