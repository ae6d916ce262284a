import HiddenClass.Proofs.Realm.Simulation

/-!
All that a program can find out about the objects of a realm. Realms that show the same views look
alike, whatever their shapes and slots.
-/

namespace HiddenClass

/-- What an array shows of itself besides its properties. -/
structure Elements.Traits where
  length : Nat
  lengthWritable : Bool
  dense : Bool
deriving DecidableEq, Repr

/-- What an object shows of itself besides its properties. -/
structure Object.Traits where
  extensible : Bool
  prototype : Option Handle
  array : Option Elements.Traits
deriving DecidableEq, Repr

def Elements.traits (elements : Elements) : Traits :=
  { length := elements.length, lengthWritable := elements.lengthWritable, dense := elements.dense }

def Object.traits (object : Object) : Traits :=
  { extensible := object.extensible
    prototype := object.prototype
    array := object.elements?.map Elements.traits }

/-- The live objects with their own properties, the keys that they list and their traits. -/
structure Realm.Sight where
  live : Handle → Bool
  own : Handle → Key → Option (Option Descriptor)
  keys : Handle → KeyFilter → Option (List Key)
  traits : Handle → Option Object.Traits

def Realm.sight (realm : Realm) : Sight where
  live := realm.objects.contains
  own := fun object key => (getOwn object key).answer? realm
  keys := fun object filter => (Realm.keys object filter).answer? realm
  traits := fun object => (realm.objects.get? object).map Object.traits

def Elements.View.traits (view : View) : Traits :=
  { length := view.length, lengthWritable := view.lengthWritable, dense := view.dense }

def Object.View.traits (view : View) : Traits :=
  { extensible := view.extensible
    prototype := view.prototype
    array :=
      match view.content with
      | .ordinary _ => none
      | .array array => some array.traits }

/-- The traits of an object are those of its view. -/
theorem Object.Holds.traits_eq {object : Object} {chart : Chart} {view : Object.View}
    (holds : object.Holds chart view) : object.traits = view.traits := by
  have content := holds.content
  unfold Object.traits View.traits Object.elements?
  rw [holds.extensible, holds.prototype]
  cases shown : view.content with
  | ordinary record =>
    rw [shown] at content
    rw [content.1]
    rfl
  | array array =>
    rw [shown] at content
    obtain ⟨elements, kind, held⟩ := content
    rw [kind]
    simp only [Option.map_some, Elements.traits, Elements.View.traits, held.length,
      held.lengthWritable, held.dense]

namespace Realm

/-- Two sights show the same of an object. -/
structure Sight.Alike (first second : Sight) (object : Handle) : Prop where
  live : second.live object = first.live object
  own : ∀ key, second.own object key = first.own object key
  keys : ∀ filter, second.keys object filter = first.keys object filter
  traits : second.traits object = first.traits object

variable {realm later : Realm} {chart after : Chart} {views others : Views} {object : Handle}
  {view : Object.View} {α : Type}

theorem answer?_of_gone (gone : realm.objects.get? object = none) (action : Object.Action α) :
    (onObject object action).answer? realm = none := by
  rw [Action.answer?, onObject_of_gone gone]

namespace Holds

/-! ### What an object shows -/

theorem get?_of_unseen (holds : realm.Holds chart views) (unseen : views object = none) :
    realm.objects.get? object = none := by
  rw [Arena.get?_eq_none_iff]
  intro contained
  obtain ⟨view, shown⟩ := holds.live_iff.mpr contained
  rw [unseen] at shown
  cases shown

theorem sight_own (holds : realm.Holds chart views) (shown : views object = some view) (key : Key) :
    realm.sight.own object key = some (view.getOwn key) := by
  obtain ⟨_, _, ran, _⟩ := holds.getOwn_ok shown key
  exact Action.answer?_ok ran

theorem sight_keys (holds : realm.Holds chart views) (shown : views object = some view)
    (filter : KeyFilter) :
    ∃ listed, view.content.Lists filter listed ∧ realm.sight.keys object filter = some listed := by
  obtain ⟨listed, _, _, lists, ran, _⟩ := holds.keys_ok shown filter
  exact ⟨listed, lists, Action.answer?_ok ran⟩

theorem sight_traits (holds : realm.Holds chart views) (shown : views object = some view) :
    realm.sight.traits object = some view.traits := by
  obtain ⟨cell, found, seen⟩ := holds.find shown
  rw [sight]
  simp only [found, Option.map_some, seen.traits_eq]

/-- An object that answers whether it has a property is live. -/
theorem shown_of_own (holds : realm.Holds chart views) {key : Key} {own : Option Descriptor}
    (answered : realm.sight.own object key = some own) : ∃ view, views object = some view := by
  cases shown : views object with
  | some view => exact ⟨view, rfl⟩
  | none =>
    have gone : realm.sight.own object key = none :=
      answer?_of_gone (holds.get?_of_unseen shown) _
    rw [gone] at answered
    cases answered

/-- An object with the traits of an array has the view of one. -/
theorem array_of_traits (holds : realm.Holds chart views) {array : Handle} {traits : Object.Traits}
    {elements : Elements.Traits} (seen : realm.sight.traits array = some traits)
    (kind : traits.array = some elements) :
    ∃ (content : Elements.View) (extensible : Bool) (prototype : Option Handle),
      views array = some { content := .array content, extensible, prototype } ∧
      elements = content.traits ∧ traits.extensible = extensible ∧ traits.prototype = prototype := by
  obtain ⟨cell, found, _⟩ := Option.map_eq_some_iff.mp seen
  obtain ⟨⟨content, extensible, prototype⟩, shown, _⟩ := holds.view array cell found
  rw [holds.sight_traits shown] at seen
  cases seen
  cases content with
  | ordinary record => cases kind
  | array content => exact ⟨content, extensible, prototype, shown, (Option.some.inj kind).symm, rfl, rfl⟩

/-- What a realm shows of an object is decided by the view of that object. -/
theorem alike (holds : realm.Holds chart views) (held : later.Holds after others)
    (same : others object = views object) : realm.sight.Alike later.sight object := by
  cases shown : views object with
  | some view =>
    have shownLater := same.trans shown
    refine ⟨?_, fun key => ?_, fun filter => ?_, ?_⟩
    · exact (held.live_iff.mp ⟨view, shownLater⟩).trans (holds.live_iff.mp ⟨view, shown⟩).symm
    · exact (held.sight_own shownLater key).trans (holds.sight_own shown key).symm
    · obtain ⟨listed, lists, answer⟩ := holds.sight_keys shown filter
      obtain ⟨names, listsLater, answerLater⟩ := held.sight_keys shownLater filter
      rw [answer, answerLater, lists.unique listsLater]
    · exact (held.sight_traits shownLater).trans (holds.sight_traits shown).symm
  | none =>
    have gone := holds.get?_of_unseen shown
    have goneLater := held.get?_of_unseen (same.trans shown)
    refine ⟨?_, fun key => ?_, fun filter => ?_, ?_⟩
    · exact (Bool.eq_false_iff.mpr (Arena.get?_eq_none_iff.mp goneLater)).trans
        (Bool.eq_false_iff.mpr (Arena.get?_eq_none_iff.mp gone)).symm
    · exact (answer?_of_gone goneLater _).trans (answer?_of_gone gone _).symm
    · exact (answer?_of_gone goneLater _).trans (answer?_of_gone gone _).symm
    · rw [sight, sight]
      simp only [gone, goneLater]

/-- Two realms that show the same views look alike. -/
theorem sight_eq (holds : realm.Holds chart views) (held : later.Holds after views) :
    later.sight = realm.sight := by
  have alike : ∀ object, realm.sight.Alike later.sight object := fun _ => holds.alike held rfl
  have live : later.sight.live = realm.sight.live := funext fun object => (alike object).live
  have own : later.sight.own = realm.sight.own :=
    funext fun object => funext fun key => (alike object).own key
  have keys : later.sight.keys = realm.sight.keys :=
    funext fun object => funext fun filter => (alike object).keys filter
  have traits : later.sight.traits = realm.sight.traits := funext fun object => (alike object).traits
  calc later.sight
    _ = ⟨later.sight.live, later.sight.own, later.sight.keys, later.sight.traits⟩ := rfl
    _ = ⟨realm.sight.live, realm.sight.own, realm.sight.keys, realm.sight.traits⟩ := by
      rw [live, own, keys, traits]
    _ = realm.sight := rfl

end Holds

end Realm

end HiddenClass
