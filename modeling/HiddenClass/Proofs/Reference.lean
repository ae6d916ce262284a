import HiddenClass.Proofs.Realm.Run

/-!
Ordinary objects answer as maps from keys to properties do. Nothing of their shapes is seen: neither
that other objects share them, nor how far their tables are built, nor which slots are used again.
-/

namespace HiddenClass

/-- A map from keys to properties, and whether keys may be added. -/
structure Reference where
  slots : Key → Option Slot := fun _ => none
  extensible : Bool := true

namespace Reference

def define (key : Key) (desc : Descriptor) (reference : Reference) : Verdict × Reference :=
  let outcome := Slot.define (reference.slots key) desc reference.extensible
  (outcome.1, { reference with slots := Function.update reference.slots key outcome.2 })

def delete (key : Key) (reference : Reference) : Verdict × Reference :=
  let outcome := Slot.delete (reference.slots key)
  (outcome.1, { reference with slots := Function.update reference.slots key outcome.2 })

/-- Every key once, or every one whose property is enumerable. -/
def Lists (reference : Reference) (filter : KeyFilter) (listed : List Key) : Prop :=
  listed.Nodup ∧ ∀ key, key ∈ listed ↔
    ∃ slot, reference.slots key = some slot ∧ filter.includes slot = true

end Reference

/-- The references of ordinary objects. -/
def References := Handle → Option Reference

namespace References

def set (references : References) (object : Handle) (reference : Option Reference) : References :=
  Function.update references object reference

def change (references : References) (object : Handle) (step : Reference → Reference) : References :=
  references.set object ((references object).map step)

/-- How a request and its reply change the references. -/
def advance (references : References) : Request → Reply → References
  | .newObject _, .answered (.handle object) | .newUniqueObject _, .answered (.handle object) =>
    references.set object (some {})
  | .newArray _, .answered (.handle object) => references.set object none
  | .define object key desc _, _ => references.change object fun reference => (reference.define key desc).2
  | .delete object key _, _ => references.change object fun reference => (reference.delete key).2
  | .preventExtensions object, _ =>
    references.change object fun reference => { reference with extensible := false }
  | _, _ => references

/-- Whether a reply is that of the reference of the object that was asked. -/
def Answers (references : References) (request : Request) (reply : Reply) : Prop :=
  match request with
  | .newObject _ | .newUniqueObject _ => ∃ object, reply = .answered (.handle object)
  | .getOwn object key => ∀ reference, references object = some reference →
    reply = .answered (.descriptor ((reference.slots key).map Slot.toDescriptor))
  | .define object key desc raises => ∀ reference, references object = some reference →
    reply = .ofVerdict raises (.ok (reference.define key desc).1)
  | .delete object key raises => ∀ reference, references object = some reference →
    reply = .ofVerdict raises (.ok (reference.delete key).1)
  | .keys object filter => ∀ reference, references object = some reference →
    ∃ listed, reply = .answered (.keys listed) ∧ reference.Lists filter listed
  | .preventExtensions object => ∀ reference, references object = some reference →
    reply = .answered .done
  | _ => True

/-- Whether all replies are those of the references, which go along with them. -/
def Agree : References → List (Request × Reply) → Prop
  | _, [] => True
  | references, (request, reply) :: rest =>
    references.Answers request reply ∧ Agree (references.advance request reply) rest

variable {references : References} {views after : Realm.Views} {view : Object.View}
  {request : Request} {reply : Reply} {events : List (Request × Reply)} {object : Handle}
  {record : Record} {reference : Reference} {key : Key}

theorem set_apply (references : References) (object : Handle) (reference : Option Reference)
    (other : Handle) :
    references.set object reference other = if other = object then reference else references other :=
  Function.update_apply ..

theorem set_self (references : References) (object : Handle) (reference : Option Reference) :
    references.set object reference object = reference :=
  (set_apply ..).trans (if_pos rfl)

/-- An ordinary object and its reference have the same properties; an array has no reference. -/
def Matches (references : References) (object : Handle) (view : Object.View) : Prop :=
  match view.content with
  | .ordinary record => ∃ reference, references object = some reference ∧
    reference.slots = record.find? ∧ reference.extensible = view.extensible
  | .array _ => references object = none

/-- Every object that is seen matches its reference. -/
def Follows (references : References) (views : Realm.Views) : Prop :=
  ∀ object view, views object = some view → references.Matches object view

/-- A reference is that of an ordinary object. -/
theorem Matches.ordinary (matched : references.Matches object view)
    (found : references object = some reference) :
    ∃ record, view.content = .ordinary record ∧ reference.slots = record.find? ∧
      reference.extensible = view.extensible := by
  unfold Matches at matched
  cases content : view.content with
  | ordinary record =>
    rw [content] at matched
    obtain ⟨same, present, slots, extensible⟩ := matched
    rw [found] at present
    cases present
    exact ⟨record, rfl, slots, extensible⟩
  | array array =>
    rw [content] at matched
    exact absurd (found.symm.trans matched) (Option.some_ne_none _)

/-- One object may change together with its reference. -/
theorem Follows.update (follows : references.Follows views) {changed : Option Reference}
    (matched : (references.set object changed).Matches object view) :
    (references.set object changed).Follows (views.update object view) := by
  intro other shown found
  rcases Realm.Views.of_update found with ⟨rfl, rfl⟩ | ⟨different, before⟩
  · exact matched
  · have old := follows other shown before
    unfold Matches at old ⊢
    rw [set_apply, if_neg different]
    exact old

/-- An object may change as its reference does, if an array stays one. -/
theorem Matches.change {step : Reference → Reference} {changed : Object.View}
    (matched : references.Matches object view)
    (ordinary : ∀ record reference, view.content = .ordinary record →
      reference.slots = record.find? → reference.extensible = view.extensible →
      ∃ moved : Record, changed.content = .ordinary moved ∧ (step reference).slots = moved.find? ∧
        (step reference).extensible = changed.extensible)
    (array : ∀ array, view.content = .array array → ∃ moved, changed.content = .array moved) :
    (references.change object step).Matches object changed := by
  unfold Matches at matched ⊢
  rw [References.change, set_self]
  cases content : view.content with
  | ordinary record =>
    rw [content] at matched
    obtain ⟨reference, found, slots, extensible⟩ := matched
    obtain ⟨moved, changedContent, movedSlots, same⟩ :=
      ordinary record reference content slots extensible
    rw [changedContent, found, Option.map_some]
    exact ⟨step reference, rfl, movedSlots, same⟩
  | array elements =>
    rw [content] at matched
    have absent : references object = none := matched
    obtain ⟨moved, changedContent⟩ := array elements content
    rw [changedContent, absent, Option.map_none]

theorem matches_define (sound : view.content.Sound) (matched : references.Matches object view)
    (bound : Nat) (doomed : List Nat) (key : Key) (desc : Descriptor) :
    Matches (references.change object fun reference => (reference.define key desc).2) object
      (view.define bound doomed key desc).2 := by
  refine matched.change (fun record reference content slots extensible => ?_) fun array content => ?_
  · rw [content] at sound
    rw [Object.View.define, content]
    refine ⟨_, rfl, ?_, extensible⟩
    funext other
    refine Eq.trans ?_ ((Record.Sound.define_eq sound key desc view.extensible).2 other).symm
    simp only [Reference.define, Function.update_apply, slots, extensible]
  · rw [Object.View.define, content, Object.Content.define]
    cases key.role <;> exact ⟨_, rfl⟩

theorem matches_delete (sound : view.content.Sound) (matched : references.Matches object view)
    (key : Key) :
    Matches (references.change object fun reference => (reference.delete key).2) object
      (view.delete key).2 := by
  refine matched.change (fun record reference content slots extensible => ?_) fun array content => ?_
  · rw [content] at sound
    rw [Object.View.delete, content]
    refine ⟨_, rfl, ?_, extensible⟩
    funext other
    refine Eq.trans ?_ ((Record.Sound.delete_eq sound key).2 other).symm
    simp only [Reference.delete, Function.update_apply, slots]
  · rw [Object.View.delete, content, Object.Content.delete]
    cases key.role <;> exact ⟨_, rfl⟩

theorem matches_preventExtensions (matched : references.Matches object view) :
    Matches (references.change object fun reference => { reference with extensible := false }) object
      { view with extensible := false } :=
  matched.change (fun record _ content slots _ => ⟨record, content, slots, rfl⟩)
    fun array content => ⟨array, content⟩

/-- A request is answered as the references have it, which then match what is seen. -/
theorem Follows.step (follows : references.Follows views) (valid : views.Valid)
    (step : views.Step request reply after) :
    references.Answers request reply ∧ (references.advance request reply).Follows after := by
  have ordinary : ∀ {object view reference}, views object = some view →
      references object = some reference → ∃ record : Record, view.content = .ordinary record ∧
        record.Sound ∧ reference.slots = record.find? ∧ reference.extensible = view.extensible := by
    intro object view reference shown found
    obtain ⟨record, content, slots, extensible⟩ := (follows object view shown).ordinary found
    have sound := valid.sound object view shown
    rw [content] at sound
    exact ⟨record, content, sound, slots, extensible⟩
  cases request with
  | intern text => exact ⟨trivial, step.2 ▸ follows⟩
  | newObject prototype =>
    obtain ⟨object, _, rfl, rfl⟩ := step
    exact ⟨⟨object, rfl⟩, follows.update ⟨{}, set_self .., rfl, rfl⟩⟩
  | newUniqueObject prototype =>
    obtain ⟨object, _, rfl, rfl⟩ := step
    exact ⟨⟨object, rfl⟩, follows.update ⟨{}, set_self .., rfl, rfl⟩⟩
  | newArray length =>
    obtain ⟨object, _, rfl, rfl⟩ := step
    exact ⟨trivial, follows.update (set_self ..)⟩
  | getOwn object key =>
    obtain ⟨view, shown, rfl, rfl⟩ := step
    refine ⟨fun reference found => ?_, follows⟩
    obtain ⟨record, content, _, slots, _⟩ := ordinary shown found
    rw [Object.View.getOwn, content, slots]
    rfl
  | getProperty object key =>
    obtain ⟨_, _, rfl⟩ := step
    exact ⟨trivial, follows⟩
  | define object key desc raises =>
    obtain ⟨view, bound, doomed, shown, _, rfl, rfl⟩ := step
    refine ⟨fun reference found => ?_, follows.update ?_⟩
    · obtain ⟨record, content, sound, slots, extensible⟩ := ordinary shown found
      rw [Object.View.define, content, Object.Content.define, Reference.define, slots, extensible,
        (sound.define_eq key desc view.extensible).1]
    · exact matches_define (valid.sound object view shown) (follows object view shown) bound doomed
        key desc
  | delete object key raises =>
    obtain ⟨view, shown, rfl, rfl⟩ := step
    refine ⟨fun reference found => ?_, follows.update ?_⟩
    · obtain ⟨record, content, sound, slots, _⟩ := ordinary shown found
      rw [Object.View.delete, content, Object.Content.delete, Reference.delete, slots,
        (sound.delete_eq key).1]
    · exact matches_delete (valid.sound object view shown) (follows object view shown) key
  | keys object filter =>
    obtain ⟨view, listed, shown, lists, rfl, rfl⟩ := step
    refine ⟨fun reference found => ⟨listed, rfl, ?_⟩, follows⟩
    obtain ⟨record, content, sound, slots, _⟩ := ordinary shown found
    rw [content] at lists
    have same : listed = record.keys filter := lists
    rw [same]
    refine ⟨sound.keys_nodup filter, fun key => ?_⟩
    rw [slots]
    exact sound.mem_keys
  | preventExtensions object =>
    obtain ⟨view, shown, rfl, rfl⟩ := step
    exact ⟨fun _ _ => rfl, follows.update (matches_preventExtensions (follows object view shown))⟩
  | setPrototype object prototype =>
    obtain ⟨view, shown, rfl, rfl⟩ := step
    refine ⟨trivial, fun other seen found => ?_⟩
    rcases Realm.Views.of_update found with ⟨rfl, rfl⟩ | ⟨_, before⟩
    · exact follows other view shown
    · exact follows other seen before
  | makeUnique object => exact ⟨trivial, step.2 ▸ follows⟩
  | makeTransitionable object => exact ⟨trivial, step.2 ▸ follows⟩
  | collect roots =>
    exact ⟨trivial, fun object view shown => follows object view (step.2.1 object view shown)⟩
  | read object key => exact step.elim
  | put object key value raises => exact step.elim

/-- All that is seen along a trace agrees with the references. -/
theorem Follows.trace (follows : references.Follows views) (valid : views.Valid)
    (trace : views.Trace events after) : references.Agree events := by
  induction trace generalizing references with
  | nil views => exact trivial
  | cons live step next ih =>
    obtain ⟨answers, followsNext⟩ := follows.step valid step
    exact ⟨answers, ih followsNext (valid.step live step)⟩

end References

/-- Whatever a program and its native functions do with live handles, ordinary objects answer as maps
from keys to properties with a flag for extension. -/
theorem Realm.run_agrees {host : Host} {config : Config} {requests : List Request}
    {events : List (Request × Reply)} {after : Realm}
    (run : Run host (ofConfig config) requests events after) :
    References.Agree (fun _ => none) events := by
  obtain ⟨chart, views, trace, _, _⟩ := run.holds
  exact References.Follows.trace (fun _ _ found => absurd found.symm (Option.some_ne_none _))
    valid_empty trace

/-- Two objects share a shape; one deletes a name, takes a shape of its own and gets the name back. -/
def Realm.sharingProgram : List Request :=
  let name := Key.named 1
  let first : Handle := ⟨0, 0⟩
  let second : Handle := ⟨1, 0⟩
  [.intern "name", .newObject none, .newObject (some first),
    .define first name (.plain (.int 1)) true, .define second name (.plain (.object first)) true,
    .define second (.index 4294967295) (.plain .null) true, .delete second name true,
    .makeUnique second, .define second name (.plain (.int 2)) false, .makeTransitionable second,
    .getOwn first name, .getOwn second name, .keys second .enumerable, .collect [second],
    .preventExtensions first, .define first (.index 0) (.plain .null) true, .keys first .all]

theorem Realm.run_agrees_sharing :
    passesLive Host.none (ofConfig {}) sharingProgram = true ∧
      References.Agree (fun _ => none)
        (sharingProgram.zip ((ofConfig {}).replies Host.none sharingProgram)) :=
  have passes : passesLive Host.none (ofConfig {}) sharingProgram = true := by decide +kernel
  ⟨passes, run_agrees (Run.of_passesLive passes)⟩

end HiddenClass
