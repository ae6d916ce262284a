import HiddenClass.Proofs.Elements.Own
import HiddenClass.Proofs.Realm.Course
import HiddenClass.Proofs.Realm.Sight
import HiddenClass.Proofs.Tunables

/-!
New elements of arrays and new properties of ordinary objects. Both are what the descriptor makes of
nothing, but for a generic descriptor that asks for an enumerable and configurable property: an array
takes it for a plain one, which is writable.
-/

namespace HiddenClass

/-- The descriptors that there are constructors for. -/
inductive Descriptor.Built : Descriptor → Prop where
  | data (value : Value) (attributes : Attributes) : Built (.data value attributes)
  | dataAttributes (attributes : Attributes) : Built (.dataAttributes attributes)
  | accessor (getter setter : Option Value) (attributes : Attributes) :
    Built (.accessor getter setter attributes)
  | generic (attributes : Attributes) : Built (.generic attributes)
  | plain (value : Value) : Built (.plain value)

/-- A generic descriptor that is taken for one of a plain property. -/
def Descriptor.isMistakable (desc : Descriptor) : Bool :=
  desc.isGeneric && desc.isEnumerable && desc.isConfigurable

namespace Elements.View

variable {view : View} {index : Nat} {desc : Descriptor}

/-- The value of a new plain element. -/
def freshValue (desc : Descriptor) : Value := if desc.lacksValue then .undefined else desc.value

theorem solid_freshValue (solid : desc.All Value.Solid) : (freshValue desc).Solid := by
  unfold freshValue
  split
  · exact Value.solid_undefined
  · exact solid.value

/-- The property that a definition makes in an array where there is none. -/
def newSlot (desc : Descriptor) : Slot :=
  if desc.isPlain then .plain (freshValue desc) else .ofDescriptor desc

/-- Apart from a mistaken one, a new element is what the descriptor makes of nothing. -/
theorem newSlot_toDescriptor (built : desc.Built) :
    (newSlot desc).toDescriptor =
      if desc.isMistakable then .plain .undefined else (Slot.ofDescriptor desc).toDescriptor := by
  cases built with
  | data value attributes =>
    obtain ⟨⟨writable, enumerable, configurable, _, _⟩, _⟩ := attributes
    cases writable <;> cases enumerable <;> cases configurable <;> rfl
  | dataAttributes attributes =>
    obtain ⟨⟨writable, enumerable, configurable, _, _⟩, _⟩ := attributes
    cases writable <;> cases enumerable <;> cases configurable <;> rfl
  | accessor getter setter attributes =>
    obtain ⟨⟨_, enumerable, configurable, _, _⟩, _⟩ := attributes
    cases enumerable <;> cases configurable <;> rfl
  | generic attributes =>
    obtain ⟨⟨_, enumerable, configurable, _, _⟩, _⟩ := attributes
    cases enumerable <;> cases configurable <;> rfl
  | plain value => rfl

/-- Reaching further makes no difference to what the array has. -/
theorem reach_frame (view : View) (oldLength index : Nat) :
    (view.reach oldLength index).element = view.element ∧
      (view.reach oldLength index).record = view.record := by
  unfold reach
  split <;> exact ⟨rfl, rfl⟩

theorem property_reach (view : View) (oldLength index other : Nat) :
    (view.reach oldLength index).property other = view.property other := by
  obtain ⟨element, record⟩ := view.reach_frame oldLength index
  unfold property stored
  rw [element, record]

/-- Where there is no property, what is to be plain becomes an element. -/
theorem plainValue_new (peeked : view.peek index = none) (unstored : view.stored index = none)
    (desc : Descriptor) :
    view.plainValue index desc = if desc.isPlain then some (freshValue desc) else none := by
  unfold plainValue
  simp only [peeked, unstored]
  cases desc.isPlain with
  | false => rfl
  | true => cases view.dense <;> rfl

theorem put_new {value : Value} (solid : value.Solid) (view : View) (bound index : Nat) :
    (view.put bound index value).element index = some value := by
  rw [element_put, if_pos rfl, Value.isHole_eq_false solid]
  rfl

/-- Where there is no property, a definition makes one: an element if it is to be plain, and a property
in the store if not. -/
theorem Sound.defineElement_new (sound : view.Sound) (absent : view.property index = none)
    (solid : desc.All Value.Solid) (bound : Nat) :
    (view.defineElement bound index desc true).1 = .accepted ∧
      (view.defineElement bound index desc true).2.property index = some (newSlot desc) ∧
      (view.defineElement bound index desc true).2.element index ≠ some .hole := by
  obtain ⟨empty, unstored⟩ := not_owns_iff.mp (property_eq_none_iff.mp absent)
  have peeked := peek_of_empty empty
  have chosen := plainValue_new peeked unstored desc
  unfold View.defineElement newSlot
  cases plain : desc.isPlain with
  | true =>
    rw [plain] at chosen
    have held := put_new (solid_freshValue solid) view bound index
    simp only [chosen, peeked, if_true]
    refine ⟨rfl, property_of_element held, fun hole => ?_⟩
    exact solid_freshValue solid (Option.some.inj (held.symm.trans hole))
  | false =>
    rw [plain] at chosen
    obtain ⟨accepted, after⟩ := sound.record.define_new unstored desc
    unfold View.defineStored
    simp only [chosen, moveToStore_of_empty empty, accepted, Bool.false_eq_true, if_false]
    refine ⟨trivial, ?_, ?_⟩
    · rw [property_of_record empty, after, if_pos rfl]
    · rw [empty]
      exact (Option.some_ne_none _).symm

theorem Sound.define_new (sound : view.Sound) (absent : view.property index = none)
    (room : view.lengthWritable = true ∨ index < view.length) (solid : desc.All Value.Solid)
    (bound : Nat) :
    (view.define bound index desc true).1 = .accepted ∧
      (view.define bound index desc true).2.property index = some (newSlot desc) ∧
      (view.define bound index desc true).2.element index ≠ some .hole := by
  obtain ⟨accepted, made, whole⟩ := sound.defineElement_new absent solid bound
  have inside : ¬(view.length ≤ index && !view.lengthWritable) = true := by
    rcases room with writable | below
    · simp [writable]
    · simp [Nat.not_le.mpr below]
  unfold View.define
  simp only [if_neg inside, accepted]
  refine ⟨trivial, (property_reach ..).trans made, ?_⟩
  rw [(reach_frame ..).1]
  exact whole

end Elements.View

namespace Realm

variable {host : Host} {realm : Realm} {chart : Chart} {views : Views} {array : Handle} {index : Nat}
  {turns : List Turn} {traits : Object.Traits} {elements : Elements.Traits} {desc : Descriptor}

/-- No hole lies where an element would be. -/
def wholeAt (realm : Realm) (array : Handle) (index : Nat) : Bool :=
  ((realm.objects.get? array).bind Object.elements?).all fun elements =>
    elements.element index ≠ some .hole

namespace Holds

variable (holds : realm.Holds chart views)
include holds

theorem whole_of_wholeAt {content : Elements.View} {extensible : Bool} {prototype : Option Handle}
    (shown : views array = some { content := .array content, extensible, prototype })
    (whole : realm.wholeAt array index = true) : content.element index ≠ some .hole := by
  obtain ⟨object, found, held⟩ := holds.find shown
  obtain ⟨inner, kind, same⟩ := held.content
  unfold wholeAt Object.elements? at whole
  rw [found, Option.bind_some, kind] at whole
  rw [← same.element]
  exact of_decide_eq_true whole

/-- A new ordinary object has what the descriptor makes of nothing. -/
theorem define_newObject (host : Host) (key : Key) (desc : Descriptor) (raises : Bool) :
    ∃ ordinary between,
      (Request.newObject none).outcome host realm = (.answered (.handle ordinary), between) ∧
      let outcome := (Request.define ordinary key desc raises).outcome host between
      outcome.1 = .answered (.accepted true) ∧
        outcome.2.sight.own ordinary key = some (some (Slot.ofDescriptor desc).toDescriptor) := by
  obtain ⟨ordinary, between, made, _, held⟩ := holds.newObject_ok none
  have ran : (Request.newObject none).perform host realm = .ok (.handle ordinary) between :=
    Action.bind_ok made _
  refine ⟨ordinary, between, outcome_ok ran, ?_⟩
  have shown := Views.update_same views ordinary { content := .ordinary {}, prototype := none }
  obtain ⟨after, _, _, _, reply, heldAfter⟩ :=
    held.outcome_define host shown Record.sound_empty key desc raises
  have absent : ({} : Record).find? key = none := rfl
  obtain ⟨accepted, found⟩ := Record.sound_empty.define_new absent desc
  refine ⟨?_, ?_⟩
  · rw [reply]
    unfold Object.View.define Object.Content.define
    simp only [accepted]
    rfl
  · rw [heldAfter.sight_own (Views.update_same ..)]
    show some ((({} : Record).define key desc true).2.find? key |>.map Slot.toDescriptor) = _
    rw [found, if_pos rfl]
    rfl

end Holds

/-- At any moment of a course with live handles, an array that may be extended takes a new element, and
shows it as an ordinary object shows a new property that is defined alike, unless the descriptor is
mistaken for that of a plain one. -/
theorem define_new_element {config : Config} (lawful : (ofConfig config).lawful host turns = true)
    (seen : ((ofConfig config).course host turns).sight.traits array = some traits)
    (kind : traits.array = some elements) (extensible : traits.extensible = true)
    (small : index < Key.indexBound)
    (absent : ((ofConfig config).course host turns).sight.own array (.index index) = some none)
    (room : elements.lengthWritable = true ∨ index < elements.length)
    (whole : ((ofConfig config).course host turns).wholeAt array index = true)
    (built : desc.Built) (solid : desc.All Value.Solid) (raises : Bool) :
    let realm := (ofConfig config).course host turns
    let outcome := (Request.define array (.index index) desc raises).outcome host realm
    outcome.1 = .answered (.accepted true) ∧
      outcome.2.sight.own array (.index index) = some (some
        (if desc.isMistakable then .plain .undefined else (Slot.ofDescriptor desc).toDescriptor)) ∧
      ∃ ordinary between,
        (Request.newObject none).outcome host realm = (.answered (.handle ordinary), between) ∧
        let defined := (Request.define ordinary (.index index) desc raises).outcome host between
        defined.1 = .answered (.accepted true) ∧
          defined.2.sight.own ordinary (.index index) =
            some (some (Slot.ofDescriptor desc).toDescriptor) := by
  intro realm outcome
  obtain ⟨chart, views, holds, valid⟩ := holds_course lawful
  obtain ⟨content, isOpen, prototype, shown, rfl, free, _⟩ := holds.array_of_traits seen kind
  obtain rfl : isOpen = true := free.symm.trans extensible
  have sound : content.Sound := valid.sound array _ shown
  have present : content.element index ≠ some .hole := holds.whole_of_wholeAt shown whole
  rw [holds.sight_own shown] at absent
  have missing : content.property index = none := by
    have none := (Object.Content.getOwn_index sound present).symm.trans (Option.some.inj absent)
    exact Option.map_eq_none_iff.mp none
  obtain ⟨after, bound, doomed, _, reply, held⟩ :=
    holds.outcome_define host shown sound (.index index) desc raises
  obtain ⟨accepted, made, filled⟩ := sound.define_new missing room solid bound
  have soundAfter := sound.define small bound desc true
  have role : (Key.index index).role = .element index := by rw [Key.role_index, if_pos small]
  have defined : Object.View.define bound doomed (.index index) desc
      { content := .array content, prototype } =
      (.ok .accepted, { content := .array (content.define bound index desc true).2, prototype }) := by
    unfold Object.View.define Object.Content.define
    simp only [role, accepted]
  rw [defined] at reply held
  refine ⟨reply, ?_, holds.define_newObject host (.index index) desc raises⟩
  rw [held.sight_own (Views.update_same ..)]
  refine congrArg some ((Object.Content.getOwn_index soundAfter filled).trans ?_)
  rw [made, Option.map_some, Elements.View.newSlot_toDescriptor built]

/-- An array is made sparse by an accessor, and its length is made read-only. -/
def fencing : List Turn :=
  let array : Handle := ⟨0, 0⟩
  [.make (.newArray 8), .make (.put array (.index 1) .null true),
    .make (.define array (.index 6) (.accessor none none {}) true),
    .make (.define array .length (.dataAttributes { enumerableAbsent := true }) true)]

/-- A hidden element is put where the array has none. -/
theorem define_new_element_hidden :
    let config : Config := { maxVectorSize := 4 }
    let realm := (ofConfig config).course Host.none fencing
    let desc := Descriptor.data (.int 5) { writable := true, configurable := true }
    let outcome := (Request.define ⟨0, 0⟩ (.index 5) desc false).outcome Host.none realm
    (ofConfig config).lawful Host.none fencing = true ∧
      realm.sight.traits ⟨0, 0⟩ = some
        ⟨true, none, some { length := 8, lengthWritable := false, dense := false }⟩ ∧
      realm.sight.own ⟨0, 0⟩ (.index 5) = some none ∧ realm.wholeAt ⟨0, 0⟩ 5 = true ∧
      desc.Built ∧ desc.All Value.Solid ∧
      outcome.1 = .answered (.accepted true) ∧
      outcome.2.sight.own ⟨0, 0⟩ (.index 5) = some (some (Slot.ofDescriptor desc).toDescriptor) := by
  intro config realm desc outcome
  have lawful : (ofConfig config).lawful Host.none fencing = true := by decide +kernel
  have seen : realm.sight.traits ⟨0, 0⟩ = some
      ⟨true, none, some { length := 8, lengthWritable := false, dense := false }⟩ := by
    decide +kernel
  have absent : realm.sight.own ⟨0, 0⟩ (.index 5) = some none := by decide +kernel
  have whole : realm.wholeAt ⟨0, 0⟩ 5 = true := by decide +kernel
  have solid : desc.All Value.Solid := by decide
  have built : desc.Built := .data ..
  obtain ⟨accepted, own, _⟩ := define_new_element lawful seen rfl rfl (by decide) absent
    (Or.inr (by decide)) whole built solid false
  exact ⟨lawful, seen, absent, whole, built, solid, accepted, own⟩

/-- A generic descriptor leaves out whether the property is writable. The element of a new array that
it makes is writable all the same, and the property of an ordinary object is not. -/
theorem define_new_element_not_generic :
    let realm := (ofConfig {}).course Host.none [.make (.newArray 0), .make (.newObject none)]
    let desc := Descriptor.generic { enumerable := true, configurable := true }
    let element := (Request.define ⟨0, 0⟩ (.index 0) desc true).outcome Host.none realm
    let property := (Request.define ⟨1, 0⟩ (.index 0) desc true).outcome Host.none realm
    element.1 = .answered (.accepted true) ∧ property.1 = .answered (.accepted true) ∧
      element.2.sight.own ⟨0, 0⟩ (.index 0) = some (some (.plain .undefined)) ∧
      property.2.sight.own ⟨1, 0⟩ (.index 0) = some (some (Slot.ofDescriptor desc).toDescriptor) ∧
      (Slot.ofDescriptor desc).toDescriptor ≠ .plain .undefined := by
  decide +kernel

end Realm

end HiddenClass
