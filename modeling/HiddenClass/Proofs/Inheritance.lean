import HiddenClass.Proofs.Realm.LookUp
import HiddenClass.Proofs.Realm.Sight
import Mathlib.Data.Finset.Card
import Mathlib.Logic.Relation

/-!
The prototype chain. Where no chain leads back to where it started, the search of a property comes to
its end, finds the nearest one and misses none, however long the chain is.
-/

namespace HiddenClass.Realm

variable {realm other : Realm} {chart after : Chart} {views : Views} {object prototype : Handle}
  {view : Object.View} {key : Key} {desc : Descriptor} {bound : Nat}

/-- The first object has the second as its prototype. -/
def Inherits (realm : Realm) (object prototype : Handle) : Prop :=
  ∃ cell, realm.objects.get? object = some cell ∧ cell.prototype = some prototype

/-- No object is among its own prototypes, near and far. -/
def Acyclic (realm : Realm) : Prop := ∀ object, ¬Relation.TransGen realm.Inherits object object

/-- Where every prototype is in an earlier place than its object, no chain leads back. -/
theorem acyclic_of_earlier (earlier : ∀ object ∈ realm.objects.handles,
    ∀ prototype ∈ (realm.objects.get? object).bind Object.prototype,
      prototype.index < object.index) : realm.Acyclic := by
  have link : ∀ {object prototype}, realm.Inherits object prototype →
      prototype.index < object.index := by
    rintro object prototype ⟨cell, found, linked⟩
    have live : realm.objects.contains object = true :=
      Arena.contains_iff.mpr ⟨cell, found⟩
    refine earlier object (Arena.mem_handles.mpr live) prototype ?_
    rw [found]
    exact linked
  have chain : ∀ {object ancestor}, Relation.TransGen realm.Inherits object ancestor →
      ancestor.index < object.index := by
    intro object ancestor chain
    induction chain with
    | single step => exact link step
    | tail _ step ih => exact (link step).trans ih
  exact fun object back => Nat.lt_irrefl _ (chain back)

/-- The own property with a key or, without one, the nearest that is inherited. -/
inductive Finds (realm : Realm) (key : Key) : Handle → Descriptor → Prop where
  | own {object : Handle} {desc : Descriptor}
    (present : realm.sight.own object key = some (some desc)) : Finds realm key object desc
  | inherited {object prototype : Handle} {desc : Descriptor}
    (absent : realm.sight.own object key = some none) (link : realm.Inherits object prototype)
    (found : Finds realm key prototype desc) : Finds realm key object desc

/-! ### Age -/

namespace Views

/-- Prototypes go back in time: each is older than the objects that inherit from it. -/
def Aged (views : Views) (age : Handle → Nat) : Prop :=
  ∀ handle view, views handle = some view → ∀ prototype, view.prototype = some prototype →
    age prototype < age handle

def Founded (views : Views) : Prop := ∃ age, views.Aged age

end Views

/-- The objects among the given ones that are older than one. -/
def older (among : Finset Handle) (age : Handle → Nat) (handle : Handle) : Finset Handle :=
  among.filter fun other => age other < age handle

theorem card_older_lt {among : Finset Handle} {age : Handle → Nat} {prototype : Handle}
    (member : prototype ∈ among) (before : age prototype < age handle) :
    (older among age prototype).card < (older among age handle).card := by
  apply Finset.card_lt_card
  refine Finset.ssubset_iff_of_subset (fun other older_ => ?_) |>.mpr ⟨prototype, ?_, ?_⟩
  · obtain ⟨listed, earlier⟩ := Finset.mem_filter.mp older_
    exact Finset.mem_filter.mpr ⟨listed, earlier.trans before⟩
  · exact Finset.mem_filter.mpr ⟨member, before⟩
  · exact fun own => Nat.lt_irrefl _ (Finset.mem_filter.mp own).2

/-- There are no more objects than there is room for. -/
theorem card_older_le (realm : Realm) (age : Handle → Nat) (handle : Handle) :
    (older realm.objects.handles.toFinset age handle).card ≤ realm.objects.capacity :=
  calc (older realm.objects.handles.toFinset age handle).card
    _ ≤ realm.objects.handles.toFinset.card := Finset.card_filter_le _ _
    _ ≤ realm.objects.handles.length := List.toFinset_card_le _
    _ ≤ realm.objects.capacity := Arena.length_handles_le _

/-! ### The search -/

namespace Views

theorem search_of_own (shown : views object = some view) (own : view.getOwn key = some desc)
    (bound : Nat) : views.search key (bound + 1) object = .ok (some desc) := by
  unfold search
  simp only [shown, own]

theorem search_of_absent (shown : views object = some view) (absent : view.getOwn key = none)
    (bound : Nat) : views.search key (bound + 1) object = views.inherited key bound view := by
  rw [search]
  simp only [shown, absent]
  rfl

theorem inherited_of_linked (linked : view.prototype = some prototype) (key : Key) (bound : Nat) :
    views.inherited key bound view = views.search key bound prototype := by
  rw [inherited, linked]

theorem inherited_of_alone (alone : view.prototype = none) (key : Key) (bound : Nat) :
    views.inherited key bound view = .ok none := by
  rw [inherited, alone]

/-- A prototype is older than the object, so the bound is not used up before the chain is. -/
theorem search_ends (valid : views.Valid) {age : Handle → Nat} (aged : views.Aged age)
    {among : Finset Handle} (all : ∀ handle, views.Live handle → handle ∈ among) (key : Key)
    (enough : (older among age object).card < bound) :
    ∃ found, views.search key bound object = .ok found := by
  induction bound generalizing object with
  | zero => exact absurd enough (Nat.not_lt_zero _)
  | succ bound ih =>
    cases shown : views object with
    | none =>
      refine ⟨none, ?_⟩
      unfold search
      simp only [shown]
    | some view =>
      cases own : view.getOwn key with
      | some present => exact ⟨present, search_of_own shown own bound⟩
      | none =>
        rw [search_of_absent shown own]
        cases linked : view.prototype with
        | none => exact ⟨none, inherited_of_alone linked key bound⟩
        | some prototype =>
          rw [inherited_of_linked linked]
          have alive := valid.prototype object view shown prototype linked
          have fewer := card_older_lt (all prototype alive) (aged object view shown prototype linked)
          exact ih (by omega)

end Views

namespace Holds

variable (holds : realm.Holds chart views)
include holds

theorem inherits_iff (shown : views object = some view) :
    realm.Inherits object prototype ↔ view.prototype = some prototype := by
  obtain ⟨cell, found, held⟩ := holds.find shown
  constructor
  · rintro ⟨same, again, linked⟩
    rw [found] at again
    rw [← held.prototype, Option.some.inj again, linked]
  · exact fun linked => ⟨cell, found, held.prototype.trans linked⟩

theorem live_of_inherits (link : realm.Inherits object prototype) :
    ∃ view, views object = some view := by
  obtain ⟨cell, found, _⟩ := link
  obtain ⟨view, shown, _⟩ := holds.view object cell found
  exact ⟨view, shown⟩

/-- Without a cycle, an object has more prototypes, near and far, than each of them. -/
theorem founded (valid : views.Valid) (acyclic : realm.Acyclic) : views.Founded := by
  classical
  let ancestors := fun object : Handle =>
    realm.objects.handles.toFinset.filter fun other => Relation.TransGen realm.Inherits object other
  refine ⟨fun object => (ancestors object).card, fun object view shown prototype linked => ?_⟩
  have link : realm.Inherits object prototype := (holds.inherits_iff shown).mpr linked
  have listed : prototype ∈ realm.objects.handles.toFinset := by
    have live := valid.prototype object view shown prototype linked
    exact List.mem_toFinset.mpr (Arena.mem_handles.mpr (holds.live_iff.mp live))
  apply Finset.card_lt_card
  refine Finset.ssubset_iff_of_subset (fun other above => ?_) |>.mpr ⟨prototype, ?_, ?_⟩
  · obtain ⟨live, chain⟩ := Finset.mem_filter.mp above
    exact Finset.mem_filter.mpr ⟨live, .head link chain⟩
  · exact Finset.mem_filter.mpr ⟨listed, .single link⟩
  · exact fun own => acyclic prototype (Finset.mem_filter.mp own).2

/-- What a search finds is the nearest property. -/
theorem finds_of_search (found : views.search key bound object = .ok (some desc)) :
    realm.Finds key object desc := by
  induction bound generalizing object with
  | zero => cases found
  | succ bound ih =>
    cases shown : views object with
    | none =>
      unfold Views.search at found
      simp only [shown] at found
      cases found
    | some view =>
      have answer := holds.sight_own shown key
      cases own : view.getOwn key with
      | some present =>
        rw [Views.search_of_own shown own] at found
        rw [own, Option.some.inj (Except.ok.inj found)] at answer
        exact .own answer
      | none =>
        rw [own] at answer
        rw [Views.search_of_absent shown own] at found
        cases linked : view.prototype with
        | none =>
          rw [Views.inherited_of_alone linked] at found
          cases found
        | some prototype =>
          rw [Views.inherited_of_linked linked] at found
          exact .inherited answer ((holds.inherits_iff shown).mpr linked) (ih found)

/-- A search that comes to its end does not miss the nearest property. -/
theorem found_of_finds (finds : realm.Finds key object desc) {found : Option Descriptor}
    (searched : views.search key bound object = .ok found) : found = some desc := by
  induction finds generalizing bound with
  | @own object desc present =>
    obtain ⟨view, shown⟩ := holds.shown_of_own present
    rw [holds.sight_own shown] at present
    cases bound with
    | zero => cases searched
    | succ bound =>
      rw [Views.search_of_own shown (Option.some.inj present)] at searched
      exact (Except.ok.inj searched).symm
  | @inherited object prototype desc absent link _ ih =>
    obtain ⟨view, shown⟩ := holds.live_of_inherits link
    rw [holds.sight_own shown] at absent
    have linked := (holds.inherits_iff shown).mp link
    cases bound with
    | zero => cases searched
    | succ bound =>
      rw [Views.search_of_absent shown (Option.some.inj absent),
        Views.inherited_of_linked linked] at searched
      exact ih searched

/-- Where prototypes go back in time, a search comes to its end. -/
theorem search_ok (valid : views.Valid) (founded : views.Founded) (key : Key) (object : Handle) :
    ∃ found, views.search key (realm.objects.capacity + 1) object = .ok found := by
  obtain ⟨age, aged⟩ := founded
  have all : ∀ handle, views.Live handle → handle ∈ realm.objects.handles.toFinset :=
    fun handle alive => List.mem_toFinset.mpr (Arena.mem_handles.mpr (holds.live_iff.mp alive))
  exact Views.search_ends valid aged all key (Nat.lt_succ_of_le (card_older_le realm age object))

theorem inherited_ok (valid : views.Valid) (founded : views.Founded) (key : Key)
    (view : Object.View) :
    ∃ found, views.inherited key (realm.objects.capacity + 1) view = .ok found := by
  cases linked : view.prototype with
  | none => exact ⟨none, Views.inherited_of_alone linked key _⟩
  | some prototype =>
    rw [Views.inherited_of_linked linked]
    exact holds.search_ok valid founded key prototype

/-- Where prototypes go back in time, an assignment is decided. -/
theorem assignment_ok (valid : views.Valid) (founded : views.Founded)
    (shown : views object = some view) (key : Key) :
    ∃ (decision : Assignment) (later : Realm) (last : Chart),
      assignment object key realm = .ok decision later ∧ later.Holds last views := by
  obtain ⟨looked, later, _, last, held, ran, heldLater⟩ :=
    holds.assignment_searched shown (Or.inr valid) key
  obtain ⟨inherited, searched⟩ := held.inherited_ok valid founded key view
  cases own : view.getOwn key with
  | some desc =>
    rw [Views.decision_of_own own] at ran
    exact ⟨_, later, last, ran, heldLater⟩
  | none =>
    rw [Views.decision_of_inherited own searched] at ran
    exact ⟨_, later, last, ran, heldLater⟩

/-- The search of a realm that shows the same views finds the nearest property, and nothing else. -/
theorem search_eq_some_iff (valid : views.Valid) (acyclic : realm.Acyclic)
    (held : other.Holds after views) :
    views.search key (other.objects.capacity + 1) object = .ok (some desc) ↔
      realm.Finds key object desc := by
  refine ⟨holds.finds_of_search, fun finds => ?_⟩
  obtain ⟨found, searched⟩ := held.search_ok valid (holds.founded valid acyclic) key object
  rw [searched, holds.found_of_finds finds searched]

/-- A request for the nearest property is answered, unless a chain leads back. -/
theorem getProperty_ends (valid : views.Valid) (live : views.Live object) (host : Host) (key : Key) :
    (∃ found,
        ((Request.getProperty object key).outcome host realm).1 = .answered (.descriptor found)) ∨
      ((Request.getProperty object key).outcome host realm).1 = .stopped .endless ∧
        ¬realm.Acyclic := by
  obtain ⟨later, _, ran, _⟩ := holds.getProperty_settled valid live key
  rw [outcome_getProperty ran]
  cases searched : views.search key (realm.objects.capacity + 1) object with
  | ok found => exact Or.inl ⟨found, rfl⟩
  | error fault =>
    refine Or.inr ⟨by rw [Views.fault_search searched]; rfl, fun acyclic => ?_⟩
    obtain ⟨found, ends⟩ := holds.search_ok valid (holds.founded valid acyclic) key object
    cases searched.symm.trans ends

/-- The nearest property is what a request for it answers. -/
theorem outcome_getProperty_iff (valid : views.Valid) (acyclic : realm.Acyclic)
    (live : views.Live object) (host : Host) :
    ((Request.getProperty object key).outcome host realm).1 = .answered (.descriptor (some desc)) ↔
      realm.Finds key object desc := by
  obtain ⟨later, _, ran, _⟩ := holds.getProperty_settled valid live key
  rw [outcome_getProperty ran, ← holds.search_eq_some_iff valid acyclic holds]
  cases views.search key (realm.objects.capacity + 1) object with
  | ok found => simp only [Reply.ofSearch, Reply.answered.injEq, Answer.descriptor.injEq,
      Except.ok.injEq]
  | error fault => exact ⟨fun same => (by cases same), fun same => (by cases same)⟩

end Holds

end HiddenClass.Realm
