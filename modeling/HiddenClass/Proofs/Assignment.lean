import HiddenClass.Proofs.Inheritance
import HiddenClass.Proofs.Redefinition

/-!
Assignment. What stands in its way is an own property that is read-only or, where there is none, an
object that may not be extended, an inherited property that is read-only, or an array that may not
become longer. Whatever meets none of these is assigned.
-/

namespace HiddenClass

namespace Elements

namespace Traits

/-- What becomes of an array that gets an element. -/
def reach (key : Key) (traits : Traits) : Traits :=
  match key with
  | .index index => if traits.length ≤ index then { traits with length := index + 1 } else traits
  | .named _ => traits

/-- For an element at the key an array would have to become longer than it may. -/
def excludes (key : Key) (traits : Traits) : Bool :=
  match key with
  | .index index => traits.length ≤ index && !traits.lengthWritable
  | .named _ => false

end Traits

namespace View

theorem traits_reach (view : View) (index : Nat) :
    (view.reach view.length index).traits = view.traits.reach (.index index) := by
  unfold View.reach Traits.reach View.traits
  simp only
  split <;> rfl

theorem visible_reach (view : View) (oldLength index other : Nat) :
    (view.reach oldLength index).visible other = view.visible other := by
  obtain ⟨element, record⟩ := view.reach_frame oldLength index
  exact visible_congr (congrFun element other) (by unfold stored; rw [record])

end View

end Elements

namespace Object.Content

variable {content : Content} {key : Key} {slot : Slot} {elements : Elements.Traits} {value : Value}

/-- A property that is found lies within the length of an array already. -/
theorem reach_of_found (within : content.Within) (interned : key.Interned)
    (found : content.slot? key = some slot) (traits : content.traits = some elements) :
    elements.reach key = elements := by
  cases content with
  | ordinary record => cases traits
  | array view =>
    cases key with
    | named id => rfl
    | index number =>
      have role : (Key.index number).role = .element number := if_pos interned
      rw [slot?_element role] at found
      have inside : number < view.length :=
        within number interned (Elements.View.owns_of_visible found)
      rw [← Option.some.inj traits]
      exact if_neg (Nat.not_le.mpr inside)

/-- An array with another plain element, which makes it longer where it lies past the end. -/
theorem rewritten_put (view : Elements.View) {index : Nat} (small : index < Key.indexBound)
    (solid : value.Solid) (bound : Nat) :
    Rewritten (.array view) (.array ((view.put bound index value).reach view.length index))
      (.index index) (some (.plain value)) (Elements.Traits.reach (.index index)) := by
  let moved := (view.put bound index value).reach view.length index
  have role : (Key.index index).role = .element index := if_pos small
  have beside := Elements.View.beside_put view bound index value
  have record : moved.record = view.record := (Elements.View.reach_frame ..).2
  have visible : moved.visible index = some (.plain value) :=
    (Elements.View.visible_reach ..).trans (Elements.View.visible_put solid view bound index)
  have rewritten : Rewritten (.array view) (.array moved) (.index index) _
      (Elements.Traits.reach (.index index)) :=
    rewritten_array
      (fun other different => (Elements.View.visible_reach ..).trans
        (beside.visible fun same => different (congrArg Key.index same)))
      (fun other _ => congrArg (fun record => record.find? other) record)
      (Elements.View.traits_reach (view.put bound index value) index)
  rw [slot?_element role, visible] at rewritten
  exact rewritten

/-- Where nothing is found, an object that may be extended gets a plain property, unless it is an array
that would have to become longer than it may. -/
theorem define_unfound (sound : content.Sound) (absent : content.slot? key = none)
    (interned : key.Interned) (solid : value.Solid) (bound : Nat) (doomed : List Nat) :
    let outcome := content.define bound doomed key (.plain value) true
    (content.traits.any (Elements.Traits.excludes key) = true →
      outcome.1 = .ok (.rejected .beyondFixedLength)) ∧
    (content.traits.any (Elements.Traits.excludes key) = false → outcome.1 = .ok .accepted ∧
      content.Rewritten outcome.2 key (some (.plain value)) (Elements.Traits.reach key)) := by
  cases content with
  | ordinary record =>
    obtain ⟨accepted, after⟩ := Record.Sound.define_new sound absent (.plain value)
    refine ⟨fun excluded => (by cases excluded), fun _ => ⟨congrArg Except.ok accepted, ?_⟩⟩
    exact ⟨(after key).trans (if_pos rfl), fun other different _ =>
      (after other).trans (if_neg different), false, rfl⟩
  | array view =>
    intro outcome
    unfold outcome define
    cases role : key.role with
    | element index =>
      obtain ⟨rfl, small⟩ := Key.of_role_element role
      rw [slot?_element role] at absent
      simp only [Elements.View.define_unfound absent bound value true, if_true]
      refine ⟨fun excluded => ?_, fun included => ?_⟩
      · have full : (view.length ≤ index && !view.lengthWritable) = true := excluded
        simp only [if_pos full]
      · have room : ¬(view.length ≤ index && !view.lengthWritable) = true :=
          Bool.eq_false_iff.mp included
        simp only [if_neg room]
        exact ⟨trivial, rewritten_put view small solid bound⟩
    | length =>
      rw [slot?_length role] at absent
      cases absent
    | name =>
      rw [slot?_name role] at absent
      obtain ⟨accepted, after⟩ :=
        Record.Sound.define_new (Elements.View.Sound.record sound) absent (.plain value)
      cases key with
      | index number => exact absurd rfl ((Key.of_role_name role).2 number interned)
      | named id =>
        simp only [accepted]
        exact ⟨fun excluded => (by cases excluded),
          fun _ => ⟨trivial, rewritten_record role after rfl⟩⟩

end Object.Content

/-! ### Properties -/

/-- The property that an assignment leaves, by the own property before it. -/
def Descriptor.assigned (value : Value) : Option Descriptor → Descriptor
  | some current => { current with value }
  | none => .plain value

theorem Descriptor.value_assigned (value : Value) (own : Option Descriptor) :
    (Descriptor.assigned value own).value = value := by
  cases own <;> rfl

theorem Descriptor.isAccessor_assigned {own : Option Descriptor}
    (data : ∀ current, own = some current → current.isAccessor = false) (value : Value) :
    (Descriptor.assigned value own).isAccessor = false := by
  cases own with
  | none => rfl
  | some current => exact data current rfl

theorem Slot.isAccessor_toDescriptor (slot : Slot) :
    slot.toDescriptor.isAccessor = slot.flags.accessor := by
  unfold toDescriptor
  split
  · rename_i accessor
    exact accessor.symm
  · rename_i data
    exact (Bool.eq_false_iff.mpr data).symm

theorem Slot.isWritable_toDescriptor {slot : Slot} (data : slot.flags.accessor = false) :
    slot.toDescriptor.isWritable = slot.flags.writable := by
  unfold toDescriptor
  rw [if_neg (Bool.eq_false_iff.mp data)]
  rfl

theorem Slot.isData_assigned {slot : Slot} (data : slot.flags.accessor = false) (value : Value) :
    (Descriptor.assigned value (some slot.toDescriptor)).isData = true := by
  rw [Descriptor.assigned, toDescriptor, if_neg (Bool.eq_false_iff.mp data)]
  rfl

namespace Slot

variable {P : Value → Prop} {slot : Slot} (proper : slot.Proper P)
  (data : slot.flags.accessor = false)
include proper data

theorem data_of_proper : slot.flags.data = true := by
  rw [proper.type, data]
  rfl

/-- A property that may be written takes a value whatever it has. -/
theorem validate_assignment (writable : slot.flags.writable = true) (value : Value) :
    slot.validate (.assignment value) = .accepted := by
  have type := data_of_proper proper data
  unfold validate Descriptor.assignment Descriptor.data Attributes.valueOnly
  simp [type, writable]

theorem merge_assignment (value : Value) :
    slot.merge (.assignment value) = { slot with value } := by
  have type := data_of_proper proper data
  obtain ⟨_, _, _, ⟨_, _, _, _, _⟩⟩ := slot
  cases type
  cases data
  rfl

theorem toDescriptor_merge_assignment (value : Value) :
    (slot.merge (.assignment value)).toDescriptor = .assigned value (some slot.toDescriptor) := by
  have other : ¬slot.flags.accessor = true := Bool.eq_false_iff.mp data
  rw [merge_assignment proper data, Descriptor.assigned, toDescriptor, toDescriptor, if_neg other,
    if_neg other]
  rfl

end Slot

/-! ### Realms -/

namespace Realm

variable {host : Host} {realm looked : Realm} {chart : Chart} {views : Views} {object : Handle}
  {view : Object.View} {key : Key} {desc : Descriptor} {value : Value}

/-- What stands in the way of an assignment. -/
inductive Bars (realm : Realm) (object : Handle) (key : Key) : Prop where
  | readOnly {desc : Descriptor} (own : realm.sight.own object key = some (some desc))
    (fixed : desc.isWritable = false)
  | inextensible {traits : Object.Traits} (absent : realm.sight.own object key = some none)
    (seen : realm.sight.traits object = some traits) (closed : traits.extensible = false)
  | inherited {prototype : Handle} {desc : Descriptor}
    (absent : realm.sight.own object key = some none) (link : realm.Inherits object prototype)
    (finds : realm.Finds key prototype desc) (fixed : desc.isWritable = false)
  | full {traits : Object.Traits} {elements : Elements.Traits}
    (absent : realm.sight.own object key = some none)
    (seen : realm.sight.traits object = some traits) (kind : traits.array = some elements)
    (excludes : elements.excludes key = true)

/-- An own data property is read without a call. -/
theorem read_of_own (host : Host) (own : realm.sight.own object key = some (some desc))
    (data : desc.isAccessor = false) :
    ((Request.read object key).outcome host realm).1 = .answered (.value desc.value) := by
  obtain ⟨later, ran⟩ : ∃ later, getOwn object key realm = .ok (some desc) later := by
    unfold sight Action.answer? at own
    simp only at own
    split at own
    · rename_i answer later ran
      rw [Option.some.inj own] at ran
      exact ⟨later, ran⟩
    · cases own
  have searched : getProperty object key realm = .ok (some desc) later := by
    show search key (realm.objects.capacity + 1) object realm = _
    rw [search, Action.bind_ok ran]
    rfl
  have performed : (Request.read object key).perform host realm =
      .ok (.value desc.value) later := by
    unfold Request.perform
    simp only
    rw [Action.bind_apply, read, Action.bind_ok searched]
    simp only [data]
    rfl
  rw [Request.outcome, performed]

/-- The length of an array may be said to do anything that comes to the same. -/
theorem Sight.Rewritten.congr {before after : Sight} {grow other : Elements.Traits → Elements.Traits}
    (rewritten : before.Rewritten after object key desc grow)
    (same : ∀ traits elements, before.traits object = some traits →
      traits.array = some elements → grow elements = other elements) :
    before.Rewritten after object key desc other := by
  obtain ⟨dense, traits⟩ := rewritten.traits
  refine ⟨rewritten.own, fun name different kept => ?_, fun traits elements seen kind => ?_,
    ⟨dense, ?_⟩, rewritten.live, rewritten.others⟩
  · exact rewritten.frame name different fun named traits elements seen kind =>
      (same traits elements seen kind).trans (kept named traits elements seen kind)
  · rw [← same traits elements seen kind]
    exact rewritten.length traits elements seen kind
  · rw [traits]
    refine Option.map_congr fun seen found => ?_
    rw [Option.map_congr fun elements kind => ?_]
    rw [same seen elements found kind]

/-- An own property stands in the way if it is read-only. -/
theorem bars_iff_of_own {current : Descriptor}
    (own : realm.sight.own object key = some (some current)) :
    realm.Bars object key ↔ current.isWritable = false := by
  refine ⟨fun bars => ?_, .readOnly own⟩
  cases bars with
  | readOnly again fixed =>
    rw [own] at again
    exact Option.some.inj (Option.some.inj again) ▸ fixed
  | inextensible absent => cases own.symm.trans absent
  | inherited absent => cases own.symm.trans absent
  | full absent => cases own.symm.trans absent

namespace Assignment

variable {current : Descriptor} {inherited : Option Descriptor}

theorem choose_present (data : current.isAccessor = false) (inherited : Option Descriptor)
    (extensible : Bool) :
    choose (some current) inherited extensible =
      if current.isWritable then .overwrite else .refused := by
  unfold choose
  simp only [data, Bool.false_eq_true, if_false]

theorem choose_absent (data : ∀ desc, inherited = some desc → desc.isAccessor = false)
    (extensible : Bool) :
    choose none inherited extensible =
      if extensible && inherited.all Descriptor.isWritable then .create else .refused := by
  unfold choose
  cases inherited with
  | none => simp
  | some desc => simp only [data desc rfl, Bool.false_eq_true, if_false, Option.all_some]

end Assignment

namespace Holds

variable (holds : realm.Holds chart views) (shown : views object = some view)
include holds shown

/-- What the search of an assignment finds is what is inherited. -/
theorem inherited_eq_some_iff (valid : views.Valid) (acyclic : realm.Acyclic) {after : Chart}
    (held : looked.Holds after views) :
    views.inherited key (looked.objects.capacity + 1) view = .ok (some desc) ↔
      ∃ prototype, realm.Inherits object prototype ∧ realm.Finds key prototype desc := by
  cases linked : view.prototype with
  | none =>
    rw [Views.inherited_of_alone linked]
    refine ⟨fun same => (by cases same), fun ⟨prototype, link, _⟩ => ?_⟩
    cases linked.symm.trans ((holds.inherits_iff shown).mp link)
  | some prototype =>
    rw [Views.inherited_of_linked linked, holds.search_eq_some_iff valid acyclic held]
    refine ⟨fun finds => ⟨prototype, (holds.inherits_iff shown).mpr linked, finds⟩, ?_⟩
    rintro ⟨parent, link, finds⟩
    cases linked.symm.trans ((holds.inherits_iff shown).mp link)
    exact finds

theorem bars_iff_of_absent (absent : realm.sight.own object key = some none)
    {inherited : Option Descriptor}
    (sought : ∀ desc, inherited = some desc ↔
      ∃ prototype, realm.Inherits object prototype ∧ realm.Finds key prototype desc) :
    realm.Bars object key ↔ (view.extensible && inherited.all Descriptor.isWritable) = false ∨
      view.content.traits.any (Elements.Traits.excludes key) = true := by
  have seen := holds.sight_traits shown
  rw [Object.View.traits_eq] at seen
  constructor
  · intro bars
    cases bars with
    | readOnly own => cases absent.symm.trans own
    | inextensible _ again closed =>
      rw [seen] at again
      have same : view.extensible = false :=
        (congrArg Object.Traits.extensible (Option.some.inj again)).trans closed
      exact Or.inl (by rw [same, Bool.false_and])
    | inherited _ link finds fixed =>
      have found := (sought _).mpr ⟨_, link, finds⟩
      exact Or.inl (by rw [found, Option.all_some, fixed, Bool.and_false])
    | full _ again kind excludes =>
      rw [seen] at again
      have same : view.content.traits = some _ :=
        (congrArg Object.Traits.array (Option.some.inj again)).trans kind
      exact Or.inr (by rw [same, Option.any_some, excludes])
  · rintro (barred | full)
    · rcases Bool.and_eq_false_iff.mp barred with closed | fixed
      · exact .inextensible absent seen closed
      · obtain ⟨desc, found, readOnly⟩ : ∃ desc, inherited = some desc ∧ desc.isWritable = false := by
          cases inherited with
          | none => cases fixed
          | some desc => exact ⟨desc, rfl, fixed⟩
        obtain ⟨prototype, link, finds⟩ := (sought desc).mp found
        exact .inherited absent link finds readOnly
    · obtain ⟨elements, kind, excludes⟩ := (Option.any_eq_true ..).mp full
      exact .full absent seen kind excludes

variable (sound : view.content.Sound)
include sound

/-- An own data property that may be written gets the value. -/
theorem overwrite (host : Host) (valid : views.Valid) (within : view.content.Within)
    (interned : key.Interned) (solid : value.Solid) {current : Descriptor}
    (own : realm.sight.own object key = some (some current))
    (other : view.content.traits = none ∨ key ≠ .length) (data : current.isAccessor = false)
    (writable : current.isWritable = true) (raises : Bool) :
    let outcome := (Request.define object key (.assignment value) raises).outcome host realm
    let assigned := Descriptor.assigned value (some current)
    outcome.1 = .answered (.accepted true) ∧ assigned.isData = true ∧
      realm.sight.Rewritten outcome.2.sight object key assigned (Elements.Traits.reach key) := by
  intro outcome assigned
  have given : (Descriptor.assignment value).All Value.Solid := Object.View.solid_data solid _
  obtain ⟨reply, rewritten, _⟩ :=
    holds.redefine shown sound host valid within own other given raises
  rw [holds.sight_slot? shown sound, Option.some.injEq] at own
  obtain ⟨kept, found, rfl⟩ := Option.map_eq_some_iff.mp own
  have proper := Object.Content.proper_slot? (valid.content object view shown) found
  have kind : kept.flags.accessor = false := by
    rw [← Slot.isAccessor_toDescriptor]
    exact data
  have free : kept.flags.writable = true := by
    rw [← Slot.isWritable_toDescriptor kind]
    exact writable
  rw [Slot.validate_ofDescriptor proper, Slot.validate_assignment proper kind free] at reply rewritten
  rw [Slot.merge_ofDescriptor proper, Slot.toDescriptor_merge_assignment proper kind] at rewritten
  refine ⟨reply, Slot.isData_assigned kind value, (rewritten rfl).congr ?_⟩
  intro traits elements seen array
  rw [holds.sight_traits shown, Object.View.traits_eq] at seen
  have same : view.content.traits = some elements :=
    (congrArg Object.Traits.array (Option.some.inj seen)).trans array
  exact (Object.Content.reach_of_found within interned found same).symm

/-- Where no own property is found, an object that may be extended gets a plain one, unless it is an
array that would have to become longer than it may. -/
theorem create (host : Host) (interned : key.Interned) (solid : value.Solid)
    (absent : realm.sight.own object key = some none) (extensible : view.extensible = true)
    (raises : Bool) :
    let outcome := (Request.define object key (.plain value) raises).outcome host realm
    (view.content.traits.any (Elements.Traits.excludes key) = true →
      outcome.1 = .ofVerdict raises (.ok (.rejected .beyondFixedLength)) ∧
        outcome.2.sight = realm.sight) ∧
    (view.content.traits.any (Elements.Traits.excludes key) = false →
      outcome.1 = .answered (.accepted true) ∧
        realm.sight.Rewritten outcome.2.sight object key (.plain value)
          (Elements.Traits.reach key)) := by
  intro outcome
  rw [holds.sight_slot? shown sound, Option.some.injEq, Option.map_eq_none_iff] at absent
  obtain ⟨after, bound, doomed, _, reply, held⟩ :=
    holds.outcome_define host shown sound key (.plain value) raises
  obtain ⟨refuses, makes⟩ :=
    Object.Content.define_unfound sound absent interned solid bound doomed
  have soundMoved := sound.define bound doomed key (.plain value) true
  obtain ⟨content, _, prototype⟩ := view
  cases extensible
  refine ⟨fun full => ?_, fun room => ?_⟩
  · have reply := reply.trans (congrArg (Reply.ofVerdict raises) (refuses full))
    refine ⟨reply, ?_⟩
    have refused : outcome.1 ≠ .answered (.accepted true) := by
      rw [reply]
      cases raises <;> exact fun same => by cases same
    rcases holds.refused_define shown sound refused with ⟨_, same⟩ | ⟨rfl, array, _, _, _, kind, _⟩
    · exact holds.sight_eq same
    · cases kind
      rw [Object.Content.slot?_length (by rfl)] at absent
      cases absent
  · obtain ⟨accepted, rewritten⟩ := makes room
    exact ⟨reply.trans (congrArg (Reply.ofVerdict raises) accepted),
      holds.rewritten shown sound soundMoved rewritten held⟩

end Holds

/-- An assignment is refused where something stands in its way, and made otherwise. -/
structure Assigns (host : Host) (realm : Realm) (object : Handle) (key : Key) (value : Value)
    (own : Option Descriptor) (raises : Bool) (outcome : Reply × Realm) : Prop where
  refused_iff : (∃ reason, outcome.1 = .ofVerdict raises (.ok (.rejected reason))) ↔
    realm.Bars object key
  unchanged : realm.Bars object key → outcome.2.sight = realm.sight
  accepted : ¬realm.Bars object key → outcome.1 = .answered (.accepted true)
  rewritten : ¬realm.Bars object key → realm.sight.Rewritten outcome.2.sight object key
    (.assigned value own) (Elements.Traits.reach key)
  isData : ¬realm.Bars object key → (Descriptor.assigned value own).isData = true
  read : ¬realm.Bars object key →
    ((Request.read object key).outcome host outcome.2).1 = .answered (.value value)

namespace Assigns

variable {own : Option Descriptor} {raises : Bool} {outcome : Reply × Realm} {reason : Rejection}

theorem of_refused (bars : realm.Bars object key)
    (reply : outcome.1 = .ofVerdict raises (.ok (.rejected reason)))
    (same : outcome.2.sight = realm.sight) :
    realm.Assigns host object key value own raises outcome where
  refused_iff := ⟨fun _ => bars, fun _ => ⟨reason, reply⟩⟩
  unchanged := fun _ => same
  accepted := fun free => absurd bars free
  rewritten := fun free => absurd bars free
  isData := fun free => absurd bars free
  read := fun free => absurd bars free

theorem of_made (free : ¬realm.Bars object key)
    (data : ∀ current, own = some current → current.isAccessor = false)
    (reply : outcome.1 = .answered (.accepted true))
    (isData : (Descriptor.assigned value own).isData = true)
    (rewritten : realm.sight.Rewritten outcome.2.sight object key (.assigned value own)
      (Elements.Traits.reach key)) :
    realm.Assigns host object key value own raises outcome where
  refused_iff := by
    refine ⟨fun ⟨reason, refused⟩ => ?_, fun bars => absurd bars free⟩
    rw [reply] at refused
    cases raises <;> cases refused
  unchanged := fun bars => absurd bars free
  accepted := fun _ => reply
  rewritten := fun _ => rewritten
  isData := fun _ => isData
  read := fun _ => by
    rw [read_of_own host rewritten.own (Descriptor.isAccessor_assigned data value),
      Descriptor.value_assigned]

end Assigns

/-! ### Assignments -/

section Assigned

variable (host) (holds : realm.Holds chart views) (shown : views object = some view)
  (valid : views.Valid) (interned : key.Interned) (solid : value.Solid)
include holds shown valid interned solid

/-- An assignment to an own data property overwrites it unless it is read-only. -/
theorem Holds.assigns_present {current : Descriptor} (within : view.content.Within)
    (own : realm.sight.own object key = some (some current))
    (other : view.content.traits = none ∨ key ≠ .length) (data : current.isAccessor = false)
    (raises : Bool) :
    realm.Assigns host object key value (some current) raises
      ((Request.put object key value raises).outcome host realm) := by
  have sound := valid.sound object view shown
  have bars := bars_iff_of_own own
  obtain ⟨looked, later, _, _, _, assigned, held⟩ :=
    holds.assignment_searched shown (Or.inr valid) key
  have same : later.sight = realm.sight := holds.sight_eq held
  have present : view.getOwn key = some current :=
    Option.some.inj ((holds.sight_own shown key).symm.trans own)
  rw [Views.decision_of_own present, Assignment.choose_present data] at assigned
  cases writable : current.isWritable with
  | false =>
    rw [writable] at assigned
    rw [outcome_put_of_refused assigned host value raises]
    exact .of_refused (bars.mpr writable) rfl same
  | true =>
    rw [writable] at assigned
    rw [outcome_put_of_define (Action.bind_ok assigned _) raises]
    obtain ⟨reply, isData, rewritten⟩ := held.overwrite shown sound host valid within interned
      solid (same ▸ own) other data writable raises
    rw [same] at rewritten
    have free : ¬realm.Bars object key := by
      rw [bars, writable]
      exact Bool.noConfusion
    exact .of_made free (fun _ own => Option.some.inj own ▸ data) reply isData rewritten

/-- The search of an assignment and the definition that follows it agree on what may be done where
there is no own property. -/
theorem Holds.assigns_absent (acyclic : realm.Acyclic)
    (absent : realm.sight.own object key = some none)
    (data : ∀ desc, realm.Finds key object desc → desc.isAccessor = false) (raises : Bool) :
    realm.Assigns host object key value none raises
      ((Request.put object key value raises).outcome host realm) := by
  have sound := valid.sound object view shown
  obtain ⟨looked, later, _, _, held, assigned, heldLater⟩ :=
    holds.assignment_searched shown (Or.inr valid) key
  have same : later.sight = realm.sight := holds.sight_eq heldLater
  obtain ⟨inherited, searched⟩ := held.inherited_ok valid (holds.founded valid acyclic) key view
  have sought : ∀ desc, inherited = some desc ↔
      ∃ prototype, realm.Inherits object prototype ∧ realm.Finds key prototype desc := by
    intro desc
    rw [← holds.inherited_eq_some_iff shown valid acyclic held, searched, Except.ok.injEq]
  have kind : ∀ desc, inherited = some desc → desc.isAccessor = false := by
    intro desc found
    obtain ⟨prototype, link, finds⟩ := (sought desc).mp found
    exact data desc (.inherited absent link finds)
  have bars := holds.bars_iff_of_absent shown absent sought
  have missing : view.getOwn key = none :=
    Option.some.inj ((holds.sight_own shown key).symm.trans absent)
  rw [Views.decision_of_inherited missing searched, Assignment.choose_absent kind] at assigned
  cases allowed : view.extensible && inherited.all Descriptor.isWritable with
  | false =>
    rw [allowed] at assigned
    rw [outcome_put_of_refused assigned host value raises]
    exact .of_refused (bars.mpr (Or.inl allowed)) rfl same
  | true =>
    rw [allowed] at assigned
    rw [outcome_put_of_define (Action.bind_ok assigned _) raises]
    obtain ⟨refuses, makes⟩ := heldLater.create shown sound host interned solid (same ▸ absent)
      (Bool.and_eq_true_iff.mp allowed).1 raises
    rw [same] at refuses makes
    cases full : view.content.traits.any (Elements.Traits.excludes key) with
    | true =>
      obtain ⟨reply, unchanged⟩ := refuses full
      exact .of_refused (bars.mpr (Or.inr full)) reply unchanged
    | false =>
      obtain ⟨reply, rewritten⟩ := makes full
      have free : ¬realm.Bars object key := by
        rw [bars, allowed, full]
        exact fun either => either.elim Bool.noConfusion Bool.noConfusion
      exact .of_made free (fun _ own => (by cases own)) reply rfl rewritten

end Assigned

/-- At any moment of a course with live handles, if no prototype chain leads back, an assignment that
calls no setter is refused exactly where something stands in its way. Anywhere else it is made: the
object has its own property with the value then, with the attributes that the property had or with those
of a plain one, and nothing else has changed but the length of an array that got longer. A turn that
overflows ends the program, so none has before; by `uninterrupted_ofConfig` that is so whenever the keys
of the course are interned. -/
theorem put_assigns {config : Config} {turns : List Turn} {own : Option Descriptor}
    (lawful : (ofConfig config).lawful host turns = true)
    (fits : (ofConfig config).uninterrupted host turns = true)
    (acyclic : ((ofConfig config).course host turns).Acyclic)
    (interned : key.Interned) (solid : value.Solid)
    (answered : ((ofConfig config).course host turns).sight.own object key = some own)
    (other : ∀ traits, ((ofConfig config).course host turns).sight.traits object = some traits →
      traits.array = none ∨ key ≠ .length)
    (data : ∀ desc, ((Request.getProperty object key).outcome host
      ((ofConfig config).course host turns)).1 = .answered (.descriptor (some desc)) →
      desc.isAccessor = false) (raises : Bool) :
    let realm := (ofConfig config).course host turns
    realm.Assigns host object key value own raises
      ((Request.put object key value raises).outcome host realm) := by
  obtain ⟨chart, views, holds, valid, within⟩ := within_course lawful fits
  obtain ⟨view, shown⟩ := holds.shown_of_own answered
  have kind := other _ (holds.sight_traits shown)
  rw [Object.View.traits_eq] at kind
  have found : ∀ desc, ((ofConfig config).course host turns).Finds key object desc →
      desc.isAccessor = false := fun desc finds =>
    data desc ((holds.outcome_getProperty_iff valid acyclic ⟨view, shown⟩ host).mpr finds)
  cases own with
  | some current =>
    exact holds.assigns_present host shown valid interned solid (within object view shown) answered
      kind (found current (.own answered)) raises
  | none => exact holds.assigns_absent host shown valid interned solid acyclic answered found raises

/-- An array of three elements and its prototype, an object with two properties of its own at indices
past them, of which one is read-only. -/
def inheriting : List Turn :=
  [.make (.newObject none), .make (.put ⟨0, 0⟩ (.index 5) (.text "open") true),
    .make (.define ⟨0, 0⟩ (.index 9) (.data (.text "sealed") {}) true), .make (.newArray 3),
    .make (.setPrototype ⟨1, 0⟩ (some ⟨0, 0⟩))]

/-- The array gets an element in front of the property that may be written, and becomes longer. It gets
none in front of the one that is read-only. -/
theorem put_assigns_inheriting :
    let realm := (ofConfig {}).course Host.none inheriting
    let array : Handle := ⟨1, 0⟩
    let made := (Request.put array (.index 5) (.int 5) true).outcome Host.none realm
    let refused := (Request.put array (.index 9) (.int 9) false).outcome Host.none realm
    (ofConfig {}).lawful Host.none inheriting = true ∧
      (ofConfig {}).uninterrupted Host.none inheriting = true ∧ realm.Acyclic ∧
      realm.sight.own array (.index 5) = some none ∧ realm.sight.own array (.index 9) = some none ∧
      realm.sight.traits array = some ⟨true, some ⟨0, 0⟩, some ⟨3, true, true⟩⟩ ∧
      ¬realm.Bars array (.index 5) ∧ made.1 = .answered (.accepted true) ∧
      realm.sight.Rewritten made.2.sight array (.index 5) (.plain (.int 5))
        (Elements.Traits.reach (.index 5)) ∧
      ((Request.read array (.index 5)).outcome Host.none made.2).1 = .answered (.value (.int 5)) ∧
      realm.Bars array (.index 9) ∧ refused.1 = .answered (.accepted false) ∧
      refused.2.sight = realm.sight := by
  intro realm array made refused
  have lawful : (ofConfig {}).lawful Host.none inheriting = true := by decide +kernel
  have fits : (ofConfig {}).uninterrupted Host.none inheriting = true :=
    uninterrupted_ofConfig lawful (by decide)
  have acyclic : realm.Acyclic := acyclic_of_earlier (by decide +kernel)
  have five : realm.sight.own array (.index 5) = some none := by decide +kernel
  have nine : realm.sight.own array (.index 9) = some none := by decide +kernel
  have traits : realm.sight.traits array = some ⟨true, some ⟨0, 0⟩, some ⟨3, true, true⟩⟩ := by
    decide +kernel
  have wide : ((Request.getProperty array (.index 5)).outcome Host.none realm).1 =
      .answered (.descriptor (some (.plain (.text "open")))) := by decide +kernel
  have sealed : ((Request.getProperty array (.index 9)).outcome Host.none realm).1 =
      .answered (.descriptor (some (.data (.text "sealed") {}))) := by decide +kernel
  have assigns : realm.Assigns Host.none array (.index 5) (.int 5) none true made := by
    refine put_assigns lawful fits acyclic (by decide) (by decide) five
      (fun _ _ => Or.inr Key.noConfusion) (fun desc found => ?_) true
    rw [wide] at found
    cases found
    rfl
  have refuses : realm.Assigns Host.none array (.index 9) (.int 9) none false refused := by
    refine put_assigns lawful fits acyclic (by decide) (by decide) nine
      (fun _ _ => Or.inr Key.noConfusion) (fun desc found => ?_) false
    rw [sealed] at found
    cases found
    rfl
  have free : ¬realm.Bars array (.index 5) := by
    intro bars
    obtain ⟨reason, rejected⟩ := assigns.refused_iff.mpr bars
    have reply : made.1 = .answered (.accepted true) := by decide +kernel
    cases reply.symm.trans rejected
  have link : realm.Inherits array ⟨0, 0⟩ := by
    have linked : (realm.objects.get? array).bind Object.prototype = some ⟨0, 0⟩ := by
      decide +kernel
    exact Option.bind_eq_some_iff.mp linked
  have bars : realm.Bars array (.index 9) := by
    have own : realm.sight.own ⟨0, 0⟩ (.index 9) = some (some (.data (.text "sealed") {})) := by
      decide +kernel
    exact .inherited nine link (.own own) rfl
  obtain ⟨reason, reply⟩ := refuses.refused_iff.mpr bars
  exact ⟨lawful, fits, acyclic, five, nine, traits, free, assigns.accepted free, assigns.rewritten free,
    assigns.read free, bars, reply, refuses.unchanged bars⟩

end Realm

end HiddenClass
