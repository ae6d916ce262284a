import HiddenClass.Proofs.Checked.Realm
import HiddenClass.Proofs.Closed
import HiddenClass.Proofs.Identity
import HiddenClass.Proofs.Repetition

/-!
Slots match shapes. In every state that a course leads to an object has a slot for each name of its
shape and for each offset that was given up, and a slot without a name is vacant. So a slot that is
read or written without a question is always there, and what is deleted is gone.
-/

namespace HiddenClass

/-! ### Objects -/

theorem Record.delete_of_accepted {record : Record} {key : Key} {offset : Nat}
    (found : record.layout.offset? key = some offset)
    (accepted : (record.delete key).1 = .accepted) :
    (record.delete key).2 = record.erase key offset := by
  unfold delete at accepted ⊢
  rw [found] at accepted ⊢
  by_cases deletable : (record.slot offset).flags.configurable = true
  · simp only [if_pos deletable]
  · simp only [if_neg deletable] at accepted
    cases accepted

namespace Object.Content

variable {content : Content} {object : Object} {chart : Chart} {key : Key} {offset : Nat}

theorem Holds.record (holds : content.Holds object chart) :
    object.store.Holds chart content.record := by
  cases content with
  | ordinary record => exact holds.2
  | array view =>
    obtain ⟨elements, _, held⟩ := holds
    exact held.store

theorem Proper.record {P : Value → Prop} (proper : content.Proper P) : content.record.Proper P := by
  cases content with
  | ordinary record => exact proper
  | array view => exact Elements.View.Proper.record proper

/-- What is stored is deleted from its slot. -/
theorem record_delete (sound : content.Sound)
    (found : content.record.layout.offset? key = some offset)
    (accepted : (content.delete key).1 = .accepted) :
    (content.delete key).2.record = content.record.erase key offset := by
  cases content with
  | ordinary record => exact Record.delete_of_accepted found accepted
  | array view =>
    change view.record.layout.offset? key = some offset at found
    have stored : view.record.find? key ≠ none := by
      rw [Record.find?_of_offset? found]
      exact Option.some_ne_none _
    unfold delete at accepted ⊢
    cases role : key.role with
    | length =>
      simp only [role] at accepted
      cases accepted
    | name =>
      simp only [role] at accepted
      exact Record.delete_of_accepted found accepted
    | element index =>
      obtain ⟨rfl, small⟩ := Key.of_role_element role
      -- what is stored is no element, so its deletion goes to the store
      have kept : ¬((view.element index).isSome || view.dense) = true := by
        intro easy
        rcases (Bool.or_eq_true _ _).mp easy with held | dense
        · exact stored (sound.apart index held)
        · exact stored (sound.dense dense index small)
      simp only [role, Elements.View.delete, if_neg kept] at accepted ⊢
      exact Record.delete_of_accepted found accepted

end Object.Content

/-! ### Realms -/

namespace Realm

/-- What the slots of an object are, given its shape. -/
structure Matched (realm : Realm) (object : Handle) (store : Store) : Prop where
  answered : ∀ key, ∃ after, Shapes.lookup store.shape key realm.shapes =
    .ok (realm.resolve object key) after
  /-- A name has a slot, of exactly one type. -/
  named : ∀ key offset, realm.resolve object key = some offset →
    ∃ slot, store.slots[offset]? = some slot ∧ slot.flags.data ≠ slot.flags.accessor
  /-- An offset that was given up has one. -/
  freed : ∃ shape, realm.shapes.arena.get? store.shape = some shape ∧
    ∀ offset ∈ shape.freed, offset < store.slots.size
  /-- No other slot holds anything. -/
  vacant : ∀ offset slot, store.slots[offset]? = some slot →
    (∀ key, realm.resolve object key ≠ some offset) → slot = .vacant

variable {realm : Realm} {chart : Chart} {views : Views} {object : Handle} {holder : Object}
  {host : Host} {view : Object.View} {config : Config} {turns : List Turn}

theorem Holds.matched (holds : realm.Holds chart views) (valid : views.Valid)
    (found : realm.objects.get? object = some holder) : realm.Matched object holder.store := by
  obtain ⟨view, shown, held⟩ := holds.view object holder found
  have stored := held.content.record
  have resolved := holds.resolve_stored found stored
  have sound := (valid.sound object view shown).record
  constructor
  case answered =>
    intro key
    obtain ⟨after, _, ran⟩ := Chart.lookup_ok held.live key
    refine ⟨after.shapes, ?_⟩
    rw [resolved, holds.shapes, ran, stored.layout]
  case named =>
    intro key offset placed
    rw [resolved] at placed
    have proper := (valid.content object view shown).record key _ (Record.find?_of_offset? placed)
    refine ⟨_, stored.getElem?_slots (stored.offset_lt placed), ?_⟩
    rw [proper.type]
    cases (view.content.record.slot offset).flags.accessor <;> decide
  case freed =>
    obtain ⟨shape, present⟩ := Chart.live_iff.mp held.live
    have fits := Chart.fits present
    refine ⟨shape, holds.shapes ▸ present, fun offset free => ?_⟩
    rw [fits.freed, stored.layout] at free
    calc offset
      _ < view.content.record.layout.size := sound.layout.lt_size_iff.mpr (Or.inr free)
      _ ≤ holder.store.slots.size := stored.room
  case vacant =>
    intro offset slot present unnamed
    have bound := (Array.getElem?_eq_some_iff.mp present).1
    rw [stored.getElem?_slots bound] at present
    calc slot
      _ = view.content.record.slot offset := (Option.some.inj present).symm
      _ = .vacant := sound.vacant offset fun key => resolved key ▸ unnamed key

/-- What is deleted is gone from its slot. -/
theorem Holds.deleted (holds : realm.Holds chart views) (valid : views.Valid) (host : Host)
    {key : Key} {offset : Nat} {raises : Bool} {after : Realm}
    (resolved : realm.resolve object key = some offset)
    (deleted : (Request.delete object key raises).outcome host realm =
      (.answered (.accepted true), after)) :
    ∃ left, after.objects.get? object = some left ∧ left.store.slots[offset]? = some .vacant := by
  cases found : realm.objects.get? object with
  | none =>
    rw [resolve, found] at resolved
    cases resolved
  | some holder =>
    obtain ⟨view, shown, held⟩ := holds.view object holder found
    obtain ⟨later, reply, heldAfter⟩ := holds.outcome_delete host shown key raises
    rw [deleted] at reply heldAfter
    obtain ⟨left, present, leftHeld⟩ := heldAfter.find (Views.update_same ..)
    have sound := valid.sound object view shown
    rw [holds.resolve_stored found held.content.record] at resolved
    have accepted := Except.ok.inj (Reply.accepted_of_ofVerdict reply.symm)
    have erased := Object.Content.record_delete sound resolved accepted
    have stored : left.store.Holds later (view.content.record.erase key offset) :=
      erased ▸ leftHeld.content.record
    have bound : offset < left.store.slots.size :=
      calc offset
        _ < view.content.record.layout.size := sound.record.layout.offset_lt resolved
        _ = (view.content.record.layout.remove key).size :=
          (Layout.size_remove sound.record.layout key).symm
        _ ≤ left.store.slots.size := stored.room
    refine ⟨left, present, ?_⟩
    calc left.store.slots[offset]?
      _ = some ((view.content.record.erase key offset).slot offset) := stored.getElem?_slots bound
      _ = some .vacant := congrArg some (Function.update_self ..)

/-- In every state that a course with live handles leads to, however few slots an object reserves, the
slots of each object match its shape, a request finds every place that it reads or writes without a
question, and what it deletes is gone. -/
theorem slots_match (lawful : (ofConfig config).lawful host turns = true) :
    let realm := (ofConfig config).course host turns
    (∀ object holder, realm.objects.get? object = some holder →
      realm.Matched object holder.store) ∧
    (∀ crash (request : Request),
      request.performWith (.places crash) host realm = request.perform host realm) ∧
    ∀ object key raises offset after, realm.resolve object key = some offset →
      (Request.delete object key raises).outcome host realm = (.answered (.accepted true), after) →
      ∃ left, after.objects.get? object = some left ∧ left.store.slots[offset]? = some .vacant := by
  intro realm
  obtain ⟨chart, views, holds, valid⟩ := holds_course lawful
  refine ⟨fun object holder found => holds.matched valid found, fun crash request => ?_, ?_⟩
  · exact holds.performWith_eq valid crash host request
  · exact fun object key raises offset after resolved deleted =>
      holds.deleted valid host resolved deleted

/-- An object outgrows its one slot, loses a name, gets a shape of its own, loses another name, and
fills the slot again. An array hands an element of its vector and one of its map over to slots. -/
def refilling : List Turn :=
  let object : Handle := ⟨0, 0⟩
  let array : Handle := ⟨1, 0⟩
  [.make (.intern "a"), .make (.intern "b"), .make (.intern "c"), .make (.newObject none),
    .make (.put object (.named 1) (.int 1) true), .make (.put object (.named 2) (.int 2) true),
    .make (.put object (.named 3) (.int 3) true), .make (.delete object (.named 1) true),
    .make (.makeUnique object), .make (.delete object (.named 2) true),
    .make (.put object (.named 1) (.int 4) true), .make (.newArray 0),
    .make (.put array (.index 0) (.int 5) true), .make (.put array (.index 3) (.int 6) true),
    .make (.define array (.index 0) (.accessor none none {}) true),
    .make (.define array (.index 3) (.data (.int 7) { configurable := true }) true)]

theorem slots_match_refilling :
    let config : Config := { initialSlotCapacity := 1, maxVectorSize := 2 }
    let realm := (ofConfig config).course Host.none refilling
    let outcome := (Request.delete ⟨1, 0⟩ (.index 3) true).outcome Host.none realm
    (ofConfig config).lawful Host.none refilling = true ∧
    (∀ object holder, realm.objects.get? object = some holder →
      realm.Matched object holder.store) ∧
    (∀ crash (request : Request),
      request.performWith (.places crash) Host.none realm = request.perform Host.none realm) ∧
    ((realm.objects.get? ⟨0, 0⟩).map fun holder => holder.store.slots.map Slot.value) =
      some #[.hole, .int 4, .int 3, .hole] ∧
    realm.resolve ⟨0, 0⟩ (.named 1) = some 1 ∧
    ∃ left, outcome.2.objects.get? ⟨1, 0⟩ = some left ∧ left.store.slots[1]? = some .vacant := by
  intro config realm outcome
  have lawful : (ofConfig config).lawful Host.none refilling = true := by decide +kernel
  have resolved : realm.resolve ⟨1, 0⟩ (.index 3) = some 1 := by decide +kernel
  have reply : outcome.1 = .answered (.accepted true) := by decide +kernel
  have deleted : outcome = (.answered (.accepted true), outcome.2) := by rw [← reply]
  obtain ⟨matched, found, gone⟩ := slots_match lawful
  refine ⟨lawful, matched, found, by decide +kernel, by decide +kernel, ?_⟩
  exact gone ⟨1, 0⟩ (.index 3) true 1 outcome.2 resolved deleted

end Realm

end HiddenClass
