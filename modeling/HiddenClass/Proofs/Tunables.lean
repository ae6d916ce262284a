import HiddenClass.Proofs.Elements.Bounded
import HiddenClass.Proofs.Realm.Run

/-!
The tunables of a heap cannot be told from what an array answers. Two arrays of one length, in heaps
of any two configurations, show the same view and go on showing the same view under the same calls.
-/

namespace HiddenClass

/-- What a program does with one object through its own properties. -/
inductive Call where
  | getOwn (key : Key)
  | define (key : Key) (desc : Descriptor) (raises : Bool)
  | put (key : Key) (value : Value) (raises : Bool)
  | delete (key : Key) (raises : Bool)
  | keys (filter : KeyFilter)
  | preventExtensions

/-- A key that a text can be interned to. -/
def Key.Interned : Key → Prop
  | .index n => n < indexBound
  | .named _ => True

instance : DecidablePred Key.Interned
  | .index n => inferInstanceAs (Decidable (n < Key.indexBound))
  | .named _ => inferInstanceAs (Decidable True)

def Value.Solid (value : Value) : Prop := value ≠ .hole

instance : DecidablePred Value.Solid := fun value => inferInstanceAs (Decidable (value ≠ .hole))

instance (P : Value → Prop) [DecidablePred P] (desc : Descriptor) : Decidable (desc.All P) :=
  decidable_of_iff (P desc.value ∧ P desc.getter ∧ P desc.setter)
    ⟨fun given => ⟨given.1, given.2.1, given.2.2⟩, fun given => ⟨given.1, given.2, given.3⟩⟩

theorem Value.solid_undefined : Value.Solid .undefined := Value.noConfusion

namespace Call

def request (object : Handle) : Call → Request
  | .getOwn key => .getOwn object key
  | .define key desc raises => .define object key desc raises
  | .put key value raises => .put object key value raises
  | .delete key raises => .delete object key raises
  | .keys filter => .keys object filter
  | .preventExtensions => .preventExtensions object

/-- The keys are interned, and no hole is among the values. -/
def Plain : Call → Prop
  | .getOwn key | .delete key _ => key.Interned
  | .define key desc _ => key.Interned ∧ desc.All Value.Solid
  | .put key value _ => key.Interned ∧ value.Solid
  | .keys _ | .preventExtensions => True

instance : DecidablePred Plain
  | .getOwn key | .delete key _ => inferInstanceAs (Decidable key.Interned)
  | .define key desc _ => inferInstanceAs (Decidable (key.Interned ∧ desc.All Value.Solid))
  | .put key value _ => inferInstanceAs (Decidable (key.Interned ∧ value.Solid))
  | .keys _ | .preventExtensions => inferInstanceAs (Decidable True)

/-- What a definition does to an object, whatever the tunables. -/
def Defines (key : Key) (desc : Descriptor) (raises : Bool) (view : Object.View) (reply : Reply)
    (after : Object.View) : Prop :=
  ∃ bound doomed,
    (∀ length, key = Key.length → Elements.lengthOf? desc.value = some length →
      view.content.Doomed length doomed) ∧
    reply = .ofVerdict raises (view.define bound doomed key desc).1 ∧
    after = (view.define bound doomed key desc).2

/-- What a call does to an object without a prototype. -/
def Does (view : Object.View) (reply : Reply) (after : Object.View) : Call → Prop
  | .getOwn key => reply = .answered (.descriptor (view.getOwn key)) ∧ after = view
  | .define key desc raises => Defines key desc raises view reply after
  | .put key value raises =>
    match Realm.Assignment.choose (view.getOwn key) none view.extensible with
    | .refused => reply = .ofVerdict raises (.ok (.rejected .notAssignable)) ∧ after = view
    | .setter _ => False
    | .overwrite => Defines key (.assignment value) raises view reply after
    | .create => Defines key (.plain value) raises view reply after
  | .delete key raises =>
    reply = .ofVerdict raises (.ok (view.delete key).1) ∧ after = (view.delete key).2
  | .keys filter =>
    ∃ listed, view.content.Lists filter listed ∧ reply = .answered (.keys listed) ∧ after = view
  | .preventExtensions => reply = .answered .done ∧ after = { view with extensible := false }

end Call

/-! ### One answer -/

namespace Elements.View

variable {view : View} {desc : Descriptor}

theorem define_eq (solid : view.Proper Value.Solid) (given : desc.All Value.Solid)
    (first second index : Nat) (extensible : Bool) :
    view.define first index desc extensible = view.define second index desc extensible := by
  have element : view.defineElement first index desc extensible =
      view.defineElement second index desc extensible := by
    unfold defineElement
    cases plain : view.plainValue index desc with
    | none => rfl
    | some value =>
      simp only
      rw [put_eq (solid.plainValue Value.solid_undefined given plain) first second]
  unfold define
  rw [element]

/-- A name may be written in the record without regard to the indices. -/
theorem Bounded.withRecord (bounded : view.Bounded) {record : Record}
    (kept : ∀ index, record.find? (.index index) = view.stored index) :
    Bounded { view with record } := by
  refine bounded.of_owns (fun other owned => ?_) rfl
  rw [owns_withRecord, kept] at owned
  exact owned

end Elements.View

/-- An array without a hole or a prototype, whose indices lie below its length. -/
structure Object.View.Tidy (view : Object.View) : Prop where
  array : ∃ array, view.content = .array array ∧ array.Bounded
  sound : view.content.Sound
  solid : view.content.Proper Value.Solid
  prototype : view.prototype = none

namespace Object.View

variable {view after later : Object.View} {key : Key} {desc : Descriptor} {call : Call}
  {reply other : Reply}

theorem tidy_ofLength {length : Nat} (word : length < 4294967296) :
    Tidy { content := .array (.ofLength length), prototype := none } where
  array := ⟨_, rfl, Elements.View.bounded_ofLength word⟩
  sound := Elements.View.sound_ofLength length
  solid := Elements.View.proper_ofLength length
  prototype := rfl

theorem index_ne_of_name (interned : key.Interned) (role : key.role = .name) (index : Nat) :
    Key.index index ≠ key := by
  intro same
  rw [← same] at interned
  exact (Key.of_role_name role).2 index interned same.symm

/-- A definition comes to the same whatever the tunables. -/
theorem Tidy.define_eq (tidy : view.Tidy) (interned : key.Interned) (given : desc.All Value.Solid)
    {doomed others : List Nat}
    (listed : ∀ length, key = Key.length → Elements.lengthOf? desc.value = some length →
      view.content.Doomed length doomed)
    (otherwise : ∀ length, key = Key.length → Elements.lengthOf? desc.value = some length →
      view.content.Doomed length others) (first second : Nat) :
    view.define first doomed key desc = view.define second others key desc ∧
      (view.define first doomed key desc).2.Tidy := by
  obtain ⟨content, extensible, prototype⟩ := view
  obtain ⟨⟨array, rfl, bounded⟩, sound, solid, linked⟩ := tidy
  have proper := Object.Content.proper_define Value.solid_undefined sound solid given first doomed key
    extensible
  have kept := sound.define first doomed key desc extensible
  have outcome : Content.define first doomed key desc extensible (.array array) =
      Content.define second others key desc extensible (.array array) ∧
      ∃ moved, (Content.define first doomed key desc extensible (.array array)).2 = .array moved ∧
        moved.Bounded := by
    unfold Content.define
    simp only
    cases role : key.role with
    | element index =>
      have same := Elements.View.define_eq solid given first second index extensible
      refine ⟨by simp only [same], _, rfl, ?_⟩
      exact bounded.define sound (Key.of_role_element role).2 first desc extensible
    | length =>
      have named := Key.of_role_length role
      obtain ⟨same, still⟩ := Elements.View.defineLength_eq sound bounded
        (fun length found => listed length named found)
        (fun length found => otherwise length named found)
      exact ⟨by simp only [same], _, rfl, still⟩
    | name =>
      refine ⟨rfl, _, rfl, bounded.withRecord fun index => ?_⟩
      exact sound.record.find?_define_of_ne (index_ne_of_name interned role index) desc extensible
  obtain ⟨same, moved, content, still⟩ := outcome
  refine ⟨?_, ⟨moved, content, still⟩, kept, proper, linked⟩
  unfold Object.View.define
  rw [same]

theorem Tidy.delete (tidy : view.Tidy) (interned : key.Interned) : (view.delete key).2.Tidy := by
  obtain ⟨content, extensible, prototype⟩ := view
  obtain ⟨⟨array, rfl, bounded⟩, sound, solid, linked⟩ := tidy
  have proper := Object.Content.proper_delete sound solid key
  have kept := sound.delete key
  have outcome : ∃ moved, (Content.delete key (.array array)).2 = .array moved ∧ moved.Bounded := by
    unfold Content.delete
    simp only
    cases role : key.role with
    | element index => exact ⟨_, rfl, bounded.delete sound index⟩
    | length => exact ⟨_, rfl, bounded⟩
    | name =>
      refine ⟨_, rfl, bounded.withRecord fun index => ?_⟩
      exact sound.record.find?_delete_of_ne (index_ne_of_name interned role index)
  exact ⟨outcome, kept, proper, linked⟩

theorem Tidy.defines_unique (tidy : view.Tidy) (interned : key.Interned)
    (given : desc.All Value.Solid) {raises : Bool}
    (first : Call.Defines key desc raises view reply after)
    (second : Call.Defines key desc raises view other later) :
    reply = other ∧ after = later ∧ after.Tidy := by
  obtain ⟨bound, doomed, listed, rfl, rfl⟩ := first
  obtain ⟨otherBound, others, otherwise, rfl, rfl⟩ := second
  obtain ⟨same, still⟩ := tidy.define_eq interned given listed otherwise bound otherBound
  rw [same] at still ⊢
  exact ⟨rfl, rfl, still⟩

theorem solid_data {value : Value} (solid : value.Solid) (attributes : Attributes) :
    (Descriptor.data value attributes).All Value.Solid :=
  ⟨solid, Value.solid_undefined, Value.solid_undefined⟩

/-- A call has one answer and one effect, after which the array is tidy still. -/
theorem Tidy.does_unique (tidy : view.Tidy) (plain : call.Plain)
    (first : call.Does view reply after) (second : call.Does view other later) :
    reply = other ∧ after = later ∧ after.Tidy := by
  cases call with
  | getOwn key =>
    obtain ⟨rfl, rfl⟩ := first
    obtain ⟨rfl, rfl⟩ := second
    exact ⟨rfl, rfl, tidy⟩
  | define key desc raises => exact tidy.defines_unique plain.1 plain.2 first second
  | put key value raises =>
    unfold Call.Does at first second
    simp only at first second
    cases decision : Realm.Assignment.choose (view.getOwn key) none view.extensible with
    | refused =>
      rw [decision] at first second
      obtain ⟨rfl, rfl⟩ := first
      obtain ⟨rfl, rfl⟩ := second
      exact ⟨rfl, rfl, tidy⟩
    | setter function =>
      rw [decision] at first
      exact first.elim
    | overwrite =>
      rw [decision] at first second
      exact tidy.defines_unique plain.1 (solid_data plain.2 _) first second
    | create =>
      rw [decision] at first second
      exact tidy.defines_unique plain.1 (solid_data plain.2 _) first second
  | delete key raises =>
    obtain ⟨rfl, rfl⟩ := first
    obtain ⟨rfl, rfl⟩ := second
    exact ⟨rfl, rfl, tidy.delete plain⟩
  | keys filter =>
    obtain ⟨listed, lists, rfl, rfl⟩ := first
    obtain ⟨others, listsOthers, rfl, rfl⟩ := second
    rw [lists.unique listsOthers]
    exact ⟨rfl, rfl, tidy⟩
  | preventExtensions =>
    obtain ⟨rfl, rfl⟩ := first
    obtain ⟨rfl, rfl⟩ := second
    exact ⟨rfl, rfl, tidy.array, tidy.sound, tidy.solid, tidy.prototype⟩

end Object.View

/-! ### One call -/

namespace Realm

variable {host otherHost : Host} {realm other looked : Realm} {chart : Chart} {views : Views}
  {array otherArray : Handle} {view : Object.View} {call : Call} {calls : List Call}

/-- Whether a call assigns to nothing that is an accessor. -/
def assignsData (array : Handle) (realm : Realm) : Call → Bool
  | .put key _ _ =>
    match getOwn array key realm with
    | .ok (some desc) _ => !desc.isAccessor
    | _ => true
  | _ => true

theorem Assignment.choose_ne_setter {own : Option Descriptor}
    (data : ∀ desc, own = some desc → desc.isAccessor = false) (extensible : Bool)
    (function : Value) : choose own none extensible ≠ .setter function := by
  unfold choose
  cases own with
  | none => cases extensible <;> exact Assignment.noConfusion
  | some desc =>
    simp only [data desc rfl, Bool.false_eq_true, if_false]
    cases desc.isWritable <;> exact Assignment.noConfusion

/-- An object looks like a view from outside. -/
def Exhibits (realm : Realm) (handle : Handle) (view : Object.View) : Prop :=
  ∃ (chart : Chart) (views : Views), realm.Holds chart views ∧ views handle = some view

theorem Holds.exhibits_update {after : Chart} (holds : realm.Holds after (views.update array view)) :
    realm.Exhibits array view :=
  ⟨after, _, holds, Views.update_same ..⟩

/-- A definition is answered by what the array shows of itself. -/
theorem Holds.defines (holds : realm.Holds chart views) (host : Host)
    (shown : views array = some view) (sound : view.content.Sound) (key : Key) (desc : Descriptor)
    (raises : Bool) :
    ∃ after, Call.Defines key desc raises view
        ((Request.define array key desc raises).outcome host realm).1 after ∧
      ((Request.define array key desc raises).outcome host realm).2.Exhibits array after := by
  obtain ⟨after, bound, doomed, listed, reply, held⟩ :=
    holds.outcome_define host shown sound key desc raises
  exact ⟨_, ⟨bound, doomed, listed, reply, rfl⟩, held.exhibits_update⟩

/-- A call does to an array without a prototype what can be seen from outside. -/
theorem Exhibits.does (exhibits : realm.Exhibits array view) (host : Host)
    (sound : view.content.Sound) (linked : view.prototype = none)
    (data : realm.assignsData array call = true) :
    ∃ after, call.Does view ((call.request array).outcome host realm).1 after ∧
      ((call.request array).outcome host realm).2.Exhibits array after := by
  obtain ⟨chart, views, holds, shown⟩ := exhibits
  cases call with
  | getOwn key =>
    obtain ⟨after, reply, held⟩ := holds.outcome_getOwn host shown key
    exact ⟨view, ⟨reply, rfl⟩, after, views, held, shown⟩
  | define key desc raises => exact holds.defines host shown sound key desc raises
  | put key value raises =>
    obtain ⟨bound, looked, after, assigned, held⟩ :=
      holds.assignment_settled shown (Or.inl linked) key
    rw [Views.decision_of_alone linked] at assigned
    unfold Call.Does Call.request
    simp only
    cases decision : Assignment.choose (view.getOwn key) .none view.extensible with
    | refused =>
      rw [decision] at assigned
      rw [outcome_put_of_refused assigned host value raises]
      exact ⟨view, ⟨rfl, rfl⟩, after, views, held, shown⟩
    | setter function =>
      obtain ⟨later, _, found, _⟩ := holds.getOwn_ok shown key
      refine absurd decision (Assignment.choose_ne_setter (fun desc own => ?_) view.extensible function)
      rw [own] at found
      unfold assignsData at data
      simpa only [found, Bool.not_eq_true'] using data
    | overwrite =>
      rw [decision] at assigned
      rw [outcome_put_of_define (Action.bind_ok assigned _) raises]
      exact held.defines host shown sound key (.assignment value) raises
    | create =>
      rw [decision] at assigned
      rw [outcome_put_of_define (Action.bind_ok assigned _) raises]
      exact held.defines host shown sound key (.plain value) raises
  | delete key raises =>
    obtain ⟨after, reply, held⟩ := holds.outcome_delete host shown key raises
    exact ⟨_, ⟨reply, rfl⟩, held.exhibits_update⟩
  | keys filter =>
    obtain ⟨after, listed, lists, reply, held⟩ := holds.outcome_keys host shown filter
    exact ⟨view, ⟨listed, lists, reply, rfl⟩, after, views, held, shown⟩
  | preventExtensions =>
    obtain ⟨reply, held⟩ := holds.outcome_preventExtensions host shown
    exact ⟨_, ⟨reply, rfl⟩, held.exhibits_update⟩

/-! ### All calls -/

def lengthOf (array : Handle) (realm : Realm) : Option Nat :=
  (realm.objects.get? array).bind fun object => object.elements?.map Elements.length

/-- What calls on an array answer, with the length of the array after each. -/
def observe (host : Host) (array : Handle) : Realm → List Call → List (Reply × Option Nat)
  | _, [] => []
  | realm, call :: rest =>
    let (reply, after) := (call.request array).outcome host realm
    (reply, after.lengthOf array) :: observe host array after rest

/-- Whether no call assigns to an accessor. -/
def assignsDataOnly (host : Host) (array : Handle) : Realm → List Call → Bool
  | _, [] => true
  | realm, call :: rest =>
    realm.assignsData array call &&
      assignsDataOnly host array ((call.request array).outcome host realm).2 rest

theorem Exhibits.lengthOf_eq {elements : Elements.View} (exhibits : realm.Exhibits array view)
    (content : view.content = .array elements) : realm.lengthOf array = some elements.length := by
  obtain ⟨chart, views, holds, shown⟩ := exhibits
  obtain ⟨object, found, held⟩ := holds.find shown
  have contentHeld := held.content
  rw [content] at contentHeld
  obtain ⟨stored, kind, same⟩ := contentHeld
  unfold lengthOf
  rw [found, Option.bind_some, Object.elements?, kind, Option.map_some, same.length]

/-- An accessor in one realm is one in any other that shows the same. -/
theorem Exhibits.assignsData_eq (exhibits : realm.Exhibits array view)
    (others : other.Exhibits otherArray view) (call : Call) :
    realm.assignsData array call = other.assignsData otherArray call := by
  obtain ⟨chart, views, holds, shown⟩ := exhibits
  obtain ⟨otherChart, otherViews, otherHolds, otherShown⟩ := others
  cases call with
  | put key value raises =>
    obtain ⟨_, _, found, _⟩ := holds.getOwn_ok shown key
    obtain ⟨_, _, otherFound, _⟩ := otherHolds.getOwn_ok otherShown key
    simp only [assignsData, found, otherFound]
    cases view.getOwn key <;> rfl
  | _ => rfl

/-- Arrays that look alike answer alike, whatever the tunables of their realms. -/
theorem Exhibits.observe_eq (exhibits : realm.Exhibits array view)
    (others : other.Exhibits otherArray view) (tidy : view.Tidy)
    (plain : ∀ call ∈ calls, call.Plain) (data : assignsDataOnly host array realm calls = true) :
    observe host array realm calls = observe otherHost otherArray other calls := by
  induction calls generalizing realm other view with
  | nil => rfl
  | cons call rest ih =>
    rw [assignsDataOnly, Bool.and_eq_true] at data
    have otherData := data.1
    rw [exhibits.assignsData_eq others] at otherData
    obtain ⟨after, does, shows⟩ := exhibits.does host tidy.sound tidy.prototype data.1
    obtain ⟨later, otherDoes, otherShows⟩ :=
      others.does otherHost tidy.sound tidy.prototype otherData
    -- what can be seen leaves one answer and one effect, so both arrays look alike again
    obtain ⟨reply, rfl, tidyAfter⟩ :=
      tidy.does_unique (plain call (List.mem_cons_self ..)) does otherDoes
    obtain ⟨elements, content, _⟩ := tidyAfter.array
    have same := ih shows otherShows tidyAfter
      (fun call member => plain call (List.mem_cons_of_mem _ member)) data.2
    unfold observe
    simp only [reply, shows.lengthOf_eq content, otherShows.lengthOf_eq content, same]

theorem Holds.exhibits_newArray (holds : realm.Holds chart views) (length : Nat) :
    ∃ (array : Handle) (between : Realm), newArray length realm = .ok array between ∧
      between.Exhibits array { content := .array (.ofLength length), prototype := none } := by
  obtain ⟨array, between, made, _, held⟩ := holds.newArray_ok length
  exact ⟨array, between, made, held.exhibits_update⟩

/-- New arrays of one length answer alike in realms of any two configurations, after any two runs with
live handles: replies, errors, lists of keys and the length after each call. -/
theorem observe_newArray {config otherConfig : Config} {requests others : List Request}
    {events otherEvents : List (Request × Reply)}
    (run : Run host (ofConfig config) requests events realm)
    (otherRun : Run otherHost (ofConfig otherConfig) others otherEvents other) (length : UInt32)
    (plain : ∀ call ∈ calls, call.Plain) :
    ∃ (array otherArray : Handle) (between otherBetween : Realm),
      newArray length.toNat realm = .ok array between ∧
      newArray length.toNat other = .ok otherArray otherBetween ∧
      (assignsDataOnly host array between calls = true →
        observe host array between calls = observe otherHost otherArray otherBetween calls) := by
  obtain ⟨chart, views, _, holds, _⟩ := run.holds
  obtain ⟨otherChart, otherViews, _, otherHolds, _⟩ := otherRun.holds
  obtain ⟨array, between, made, exhibits⟩ := holds.exhibits_newArray length.toNat
  obtain ⟨otherArray, otherBetween, otherMade, otherExhibits⟩ :=
    otherHolds.exhibits_newArray length.toNat
  exact ⟨array, otherArray, between, otherBetween, made, otherMade,
    exhibits.observe_eq otherExhibits (Object.View.tidy_ofLength length.toNat_lt) plain⟩

/-- An array is made sparse and shortened past an element that cannot be deleted. -/
def shrinkingCalls : List Call :=
  [.put (.index 2) (.int 1) true, .put (.index 20000) (.int 2) true,
    .define (.index 12000) (.data .null {}) true, .delete (.index 2) true,
    .put Key.length (.int 3) true, .put Key.length (.int 3) false, .keys .all, .preventExtensions,
    .put (.index 12000) .null false, .getOwn (.index 12000)]

/-- No element is held contiguously and every shrink visits the existing indices only. -/
def sparseConfig : Config :=
  { maxVectorSize := 0, shrinkScanThreshold := 0, initialSlotCapacity := 0 }

theorem observe_newArray_shrinking :
    (∀ call ∈ shrinkingCalls, call.Plain) ∧
      ∃ (array otherArray : Handle) (between otherBetween : Realm),
        newArray 5 (ofConfig sparseConfig) = .ok array between ∧
        newArray 5 (ofConfig {}) = .ok otherArray otherBetween ∧
        assignsDataOnly Host.none array between shrinkingCalls = true ∧
        observe Host.none array between shrinkingCalls =
          observe Host.none otherArray otherBetween shrinkingCalls := by
  have plain : ∀ call ∈ shrinkingCalls, call.Plain := by decide
  have run : ∀ config, Run Host.none (ofConfig config) [] [] (ofConfig config) := fun _ => .nil _
  obtain ⟨array, otherArray, between, otherBetween, made, otherMade, same⟩ :=
    observe_newArray (run sparseConfig) (run {}) 5 plain
  have data : assignsDataOnly Host.none array between shrinkingCalls = true := by
    cases made
    decide +kernel
  exact ⟨plain, array, otherArray, between, otherBetween, made, otherMade, data, same data⟩

end Realm

end HiddenClass
