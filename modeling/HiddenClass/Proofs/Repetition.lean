import HiddenClass.Proofs.Dwindling
import HiddenClass.Proofs.Elements.Repeated
import HiddenClass.Proofs.Redefinition
import HiddenClass.Proofs.Settled

/-!
Repeating a definition. What was accepted once is accepted again and changes nothing, even where the
first definition made the property read-only or put it into another container.
-/

namespace HiddenClass

/-! ### Objects -/

namespace Object.Content

variable {content : Content} {key : Key} {slot : Slot} {desc : Descriptor} {bound : Nat}
  {doomed : List Nat} {extensible : Bool}

/-- An object has at a key what a descriptor asks for. The value of a length is compared as the length
that it denotes. -/
inductive Met : Content → Key → Descriptor → Prop
  | slot {content : Content} {key : Key} {desc : Descriptor} {slot : Slot}
    (other : content.traits = none ∨ key ≠ .length) (found : content.slot? key = some slot)
    (meets : slot.Meets desc) : Met content key desc
  | length {view : Elements.View} {desc : Descriptor} (meets : view.MeetsLength desc) :
    Met (.array view) .length desc

theorem role_length : Key.length.role = .length := rfl

/-- Such a definition is accepted, and leaves the object as it is. -/
theorem Met.define (met : content.Met key desc) (sound : content.Sound) (within : content.Within)
    (bound : Nat) (doomed : List Nat) (extensible : Bool) :
    content.define bound doomed key desc extensible = (.ok .accepted, content) := by
  cases met with
  | slot other found meets =>
    rename_i slot
    cases content with
    | ordinary record =>
      have stored : record.find? key = some slot := found
      unfold Content.define
      simp only [Record.define_of_meets stored meets]
    | array view =>
      have other : key ≠ .length := other.resolve_left (Option.some_ne_none _)
      unfold Content.define
      cases role : key.role with
      | element index =>
        rw [slot?_element role] at found
        have small := (Key.of_role_element role).2
        have inside := within index small (Elements.View.owns_of_visible found)
        simp only [Elements.View.define_of_meets sound small inside found meets]
      | length => exact absurd (Key.of_role_length role) other
      | name =>
        rw [slot?_name role] at found
        simp only [Record.define_of_meets found meets]
  | length meets =>
    unfold Content.define
    simp only [role_length, meets.defineLength doomed]

/-- An accepted definition leaves an object that has what was asked for. -/
theorem met_of_define (sound : content.Sound) (settled : content.Settled)
    (solid : content.Proper Value.Solid)
    (single : (desc.attributes.data && desc.attributes.accessor) = false)
    (given : desc.All Value.Solid)
    (accepted : (content.define bound doomed key desc extensible).1 = .ok .accepted) :
    (content.define bound doomed key desc extensible).2.Met key desc := by
  cases content with
  | ordinary record =>
    obtain ⟨slot, found, meets⟩ :=
      Record.Sound.meets_of_define sound single (Except.ok.inj accepted)
    exact .slot (Or.inl rfl) found meets
  | array view =>
    unfold Content.define at accepted ⊢
    cases role : key.role with
    | element index =>
      simp only [role] at accepted
      obtain ⟨same, small⟩ := Key.of_role_element role
      have other : key ≠ .length := same ▸ Key.noConfusion
      obtain ⟨slot, found, meets⟩ := Elements.View.meets_of_define sound settled.bounded
        settled.solid small single given (Except.ok.inj accepted)
      exact .slot (Or.inr other) ((slot?_element role).trans found) meets
    | length =>
      simp only [role] at accepted
      rw [Key.of_role_length role]
      exact .length (Elements.View.Sound.meetsLength sound settled.bounded.word single accepted)
    | name =>
      simp only [role] at accepted
      have soundRecord : view.record.Sound := Elements.View.Sound.record sound
      obtain ⟨slot, found, meets⟩ :=
        soundRecord.meets_of_define single (Except.ok.inj accepted)
      exact .slot (Or.inr (Key.of_role_name role).1) ((slot?_name role).trans found) meets

theorem Settled.within (settled : content.Settled) : content.Within := by
  cases content with
  | ordinary record => trivial
  | array view => exact settled.bounded.within _

end Object.Content

/-! ### Realms -/

theorem Request.Plain.solid {request : Request} (plain : request.Plain) : request.Solid := by
  cases request with
  | put object key value raises => exact plain.2
  | define object key desc raises => exact plain.2
  | _ => trivial

/-- Only what is accepted is answered so. -/
theorem Reply.accepted_of_ofVerdict {raises : Bool} {verdict : Except Fault Verdict}
    (answered : ofVerdict raises verdict = .answered (.accepted true)) : verdict = .ok .accepted := by
  cases verdict with
  | error error => cases answered
  | ok verdict =>
    cases verdict with
    | accepted => rfl
    | rejected reason => cases raises <;> cases answered

namespace Realm

variable {host : Host} {realm : Realm} {chart : Chart} {views : Views} {object : Handle}
  {view : Object.View} {key : Key} {desc : Descriptor} {raises : Bool} {turns : List Turn}

/-- Plain requests leave arrays settled, and no hole in any property. -/
theorem plain_course {config : Config} (lawful : (ofConfig config).lawful host turns = true)
    (plain : ∀ turn ∈ turns, turn.request.Plain) :
    ∃ (chart : Chart) (views : Views), ((ofConfig config).course host turns).Holds chart views ∧
      views.Valid ∧ views.Settled ∧ views.Solid := by
  obtain ⟨chart, views, holds, valid, every⟩ := every_course (lasting_settled.and lasting_solid)
    lawful fun turn member => ⟨plain turn member, (plain turn member).solid⟩
  exact ⟨chart, views, holds, valid, fun object view shown => (every object view shown).1,
    fun object view shown => (every object view shown).2⟩

namespace Holds

variable (holds : realm.Holds chart views)
include holds

/-- What accepts a definition is live. -/
theorem shown_of_define {yes : Bool}
    (answered : ((Request.define object key desc raises).outcome host realm).1 =
      .answered (.accepted yes)) : ∃ view, views object = some view := by
  cases shown : views object with
  | some view => exact ⟨view, rfl⟩
  | none =>
    have stale := onObject_of_gone (holds.get?_of_unseen shown) (Object.define key desc)
    have ran : (Request.define object key desc raises).perform host realm =
        .error (.stale object) realm := by
      show (Action.report raises (onObject object (Object.define key desc)) >>=
        fun yes => pure (Answer.accepted yes)) realm = _
      rw [Action.bind_apply, Action.report_error stale]
    rw [Request.outcome, ran] at answered
    cases answered

variable (shown : views object = some view) (sound : view.content.Sound)
include shown sound

/-- A definition that asks for what is there already is accepted and shows nothing of itself. -/
theorem outcome_of_met (met : view.content.Met key desc) (within : view.content.Within)
    (host : Host) (raises : Bool) :
    let outcome := (Request.define object key desc raises).outcome host realm
    outcome.1 = .answered (.accepted true) ∧ outcome.2.sight = realm.sight := by
  obtain ⟨after, bound, doomed, _, reply, held⟩ :=
    holds.outcome_define host shown sound key desc raises
  have kept : view.define bound doomed key desc = (.ok .accepted, view) := by
    unfold Object.View.define
    simp only [met.define sound within]
  rw [kept] at reply held
  rw [update_self views shown] at held
  exact ⟨reply, holds.sight_eq held⟩

/-- An accepted definition is accepted once more, and nothing more changes. -/
theorem repeated (settled : view.content.Settled) (solid : view.content.Proper Value.Solid)
    (single : (desc.attributes.data && desc.attributes.accessor) = false)
    (given : desc.All Value.Solid)
    (accepted : ((Request.define object key desc raises).outcome host realm).1 =
      .answered (.accepted true)) (again : Bool) :
    let first := (Request.define object key desc raises).outcome host realm
    let second := (Request.define object key desc again).outcome host first.2
    second.1 = .answered (.accepted true) ∧ second.2.sight = first.2.sight := by
  intro first second
  obtain ⟨after, bound, doomed, listed, reply, held⟩ :=
    holds.outcome_define host shown sound key desc raises
  have verdict : (view.content.define bound doomed key desc view.extensible).1 = .ok .accepted :=
    Reply.accepted_of_ofVerdict (reply.symm.trans accepted)
  have met := Object.Content.met_of_define sound settled solid single given verdict
  have within : (view.define bound doomed key desc).2.content.Within :=
    settled.within.define sound listed (settled.define_fits sound listed)
  exact held.outcome_of_met (Views.update_same ..) (sound.define ..) met within host again

end Holds

/-- At any moment of a plain course with live handles, a definition that is accepted is accepted again
when it is repeated, and then changes nothing that can be seen of any object. A property agrees with a
descriptor exactly if it is the same after the descriptor is merged. No descriptor is one of both
types: `Descriptor.Built.type` has that of all that are built, and changing the value or the writable
flag later keeps it. -/
theorem define_again {config : Config} (lawful : (ofConfig config).lawful host turns = true)
    (plain : ∀ turn ∈ turns, turn.request.Plain) :
    (∀ object key desc raises again,
      (desc.attributes.data && desc.attributes.accessor) = false → desc.All Value.Solid →
      let first := (Request.define object key desc raises).outcome host
        ((ofConfig config).course host turns)
      let second := (Request.define object key desc again).outcome host first.2
      first.1 = .answered (.accepted true) →
        second.1 = .answered (.accepted true) ∧ second.2.sight = first.2.sight) ∧
    ∀ (slot : Slot) (desc : Descriptor),
      (desc.attributes.data && desc.attributes.accessor) = false →
      slot.flags.data = !slot.flags.accessor →
      (slot.agrees desc = true ↔ (slot.merge desc).Same slot) := by
  obtain ⟨chart, views, holds, valid, settled, solid⟩ := plain_course lawful plain
  refine ⟨?_, fun slot desc single type => Slot.agrees_iff_same single type⟩
  intro object key desc raises again single given first second accepted
  obtain ⟨view, shown⟩ := holds.shown_of_define accepted
  exact holds.repeated shown (valid.sound object view shown) (settled object view shown)
    (solid object view shown) single given accepted again

/-- The length six, written as a text and to be read-only. -/
def trimming : Descriptor :=
  .data (.text "6") { enumerableAbsent := true, configurableAbsent := true }

/-- The first definition deletes an element and a property and makes the length read-only, and the
second one finds the length as it is to be. -/
theorem define_again_trimmed :
    let realm := (ofConfig { maxVectorSize := 4 }).course Host.none obstructing
    let first := (Request.define ⟨0, 0⟩ .length trimming true).outcome Host.none realm
    let second := (Request.define ⟨0, 0⟩ .length trimming false).outcome Host.none first.2
    let slot := Slot.plain (.int 6)
    (ofConfig { maxVectorSize := 4 }).lawful Host.none obstructing = true ∧
      (∀ turn ∈ obstructing, turn.request.Plain) ∧
      realm.sight.keys ⟨0, 0⟩ .all =
        some [.length, .index 0, .index 2, .index 5, .index 7, .index 8] ∧
      trimming.All Value.Solid ∧ first.1 = .answered (.accepted true) ∧
      first.2.sight.traits ⟨0, 0⟩ =
        some ⟨true, none, some { length := 6, lengthWritable := false, dense := false }⟩ ∧
      first.2.sight.keys ⟨0, 0⟩ .all = some [.length, .index 0, .index 2, .index 5] ∧
      second.1 = .answered (.accepted true) ∧ second.2.sight = first.2.sight ∧
      slot.flags.data = !slot.flags.accessor ∧ slot.agrees trimming = false ∧
      ¬(slot.merge trimming).Same slot := by
  intro realm first second slot
  have lawful : (ofConfig { maxVectorSize := 4 }).lawful Host.none obstructing = true := by
    decide +kernel
  have plain : ∀ turn ∈ obstructing, turn.request.Plain := by decide
  have before : realm.sight.keys ⟨0, 0⟩ .all =
      some [.length, .index 0, .index 2, .index 5, .index 7, .index 8] := by decide +kernel
  have given : trimming.All Value.Solid := by decide
  have accepted : first.1 = .answered (.accepted true) := by decide +kernel
  have settled : first.2.sight.traits ⟨0, 0⟩ =
      some ⟨true, none, some { length := 6, lengthWritable := false, dense := false }⟩ := by
    decide +kernel
  have cut : first.2.sight.keys ⟨0, 0⟩ .all = some [.length, .index 0, .index 2, .index 5] := by
    decide +kernel
  obtain ⟨repeated, unchanged⟩ := define_again lawful plain
  obtain ⟨reply, same⟩ := repeated ⟨0, 0⟩ .length trimming true false rfl given accepted
  have differs : slot.agrees trimming = false := by decide +kernel
  refine ⟨lawful, plain, before, given, accepted, settled, cut, reply, same, rfl, differs, ?_⟩
  intro equal
  have agreed := (unchanged slot trimming rfl rfl).mpr equal
  rw [differs] at agreed
  cases agreed

end Realm

end HiddenClass
