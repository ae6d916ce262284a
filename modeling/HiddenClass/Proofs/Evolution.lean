import HiddenClass.Proofs.Number.Double
import HiddenClass.Proofs.Property.Endures
import HiddenClass.Proofs.Realm.Course

/-!
How objects become what they are. All that happens to the stored properties of an object, be it an
ordinary one or an array whose elements move to its store, comes down to definitions and deletions.
-/

namespace HiddenClass

variable {P : Descriptor → Prop} {desc : Descriptor}

namespace Record

/-- A record that became of another by definitions of one kind and by deletions. -/
inductive Evolves (P : Descriptor → Prop) (before : Record) : Record → Prop where
  | refl : Evolves P before before
  | define {record : Record} {desc : Descriptor} (earlier : Evolves P before record) (given : P desc)
      (key : Key) (extensible : Bool) : Evolves P before (record.define key desc extensible).2
  | delete {record : Record} (earlier : Evolves P before record) (key : Key) :
      Evolves P before (record.delete key).2

variable {before between after record : Record} {key : Key} {slot : Slot} {Q : Slot → Prop}

theorem Evolves.trans (first : Evolves P before between) (second : Evolves P between after) :
    Evolves P before after := by
  induction second with
  | refl => exact first
  | define earlier given key extensible ih => exact ih.define given key extensible
  | delete earlier key ih => exact ih.delete key

theorem Evolves.sound (evolves : Evolves P before after) (sound : before.Sound) : after.Sound := by
  induction evolves with
  | refl => exact sound
  | define earlier given key extensible ih => exact ih.define key _ extensible
  | delete earlier key ih => exact ih.delete key

/-- What definitions make true of a property and keep true is true of all properties. -/
theorem Evolves.all (evolves : Evolves P before after) (sound : before.Sound)
    (made : ∀ desc, P desc → Q (.ofDescriptor desc))
    (merged : ∀ slot desc, P desc → Q slot → Q (slot.merge desc))
    (all : ∀ key slot, before.find? key = some slot → Q slot) :
    ∀ key slot, after.find? key = some slot → Q slot := by
  induction evolves with
  | refl => exact all
  | @define record desc earlier given key extensible ih =>
    intro other slot found
    rw [((earlier.sound sound).define_eq key desc extensible).2] at found
    by_cases same : other = key
    · rw [if_pos same] at found
      cases present : record.find? key with
      | none =>
        rw [present, Slot.define] at found
        split at found
        · exact Option.some.inj found ▸ made desc given
        · cases found
      | some current =>
        rw [present, Slot.define] at found
        split at found
        · exact Option.some.inj found ▸ merged current desc given (ih key current present)
        · exact Option.some.inj found ▸ ih key current present
    · rw [if_neg same] at found
      exact ih other slot found
  | @delete record earlier key ih =>
    intro other slot found
    rw [((earlier.sound sound).delete_eq key).2] at found
    by_cases same : other = key
    · rw [if_pos same] at found
      cases present : record.find? key with
      | none =>
        rw [present, Slot.delete] at found
        cases found
      | some current =>
        rw [present, Slot.delete] at found
        split at found
        · cases found
        · exact Option.some.inj found ▸ ih key current present
    · rw [if_neg same] at found
      exact ih other slot found

/-- A property that is not configurable endures. -/
theorem Evolves.endures (evolves : Evolves P before after) (sound : before.Sound)
    (found : before.find? key = some slot) (type : slot.flags.data = !slot.flags.accessor)
    (fixed : slot.flags.configurable = false) :
    ∃ later, after.find? key = some later ∧ slot.Endures later := by
  induction evolves with
  | refl => exact ⟨slot, found, .refl fixed⟩
  | @define record desc earlier given other extensible ih =>
    obtain ⟨current, present, endures⟩ := ih
    have after := ((earlier.sound sound).define_eq other desc extensible).2 key
    by_cases same : key = other
    · rw [if_pos same, ← same, present, Slot.define] at after
      have currentType : current.flags.data = !current.flags.accessor := by
        rw [endures.data, endures.accessor]
        exact type
      cases verdict : current.validate desc with
      | accepted =>
        rw [verdict] at after
        exact ⟨_, same ▸ after,
          endures.trans (Slot.endures_merge currentType endures.configurable verdict)⟩
      | rejected reason =>
        rw [verdict] at after
        exact ⟨current, same ▸ after, endures⟩
    · rw [if_neg same] at after
      exact ⟨current, after.trans present, endures⟩
  | @delete record earlier other ih =>
    obtain ⟨current, present, endures⟩ := ih
    refine ⟨current, ?_, endures⟩
    rw [((earlier.sound sound).delete_eq other).2 key]
    by_cases same : key = other
    · rw [if_pos same, ← same, present, Slot.delete, if_neg]
      rw [endures.configurable]
      exact Bool.false_ne_true
    · rw [if_neg same]
      exact present

end Record

namespace Elements.View

variable {view before between after : View} {index length : Nat} {extensible writable : Bool}

/-- An array that became of another: its record evolved, and a length that was read-only stayed. -/
structure Evolves (P : Descriptor → Prop) (before after : View) : Prop where
  record : Record.Evolves P before.record after.record
  length : before.lengthWritable = false →
    after.length = before.length ∧ after.lengthWritable = false

theorem Evolves.refl (view : View) : Evolves P view view := ⟨.refl, fun fixed => ⟨rfl, fixed⟩⟩

theorem Evolves.trans (first : Evolves P before between) (second : Evolves P between after) :
    Evolves P before after where
  record := first.record.trans second.record
  length := fun fixed => by
    obtain ⟨same, stays⟩ := first.length fixed
    obtain ⟨later, last⟩ := second.length stays
    exact ⟨later.trans same, last⟩

/-- Only the record changed. -/
theorem Evolves.of_record (record : Record.Evolves P before.record after.record)
    (length : after.length = before.length) (writable : after.lengthWritable = before.lengthWritable) :
    Evolves P before after :=
  ⟨record, fun fixed => ⟨length, writable.trans fixed⟩⟩

theorem evolves_moveToStore (plain : ∀ value, P (.plain value)) (view : View) (index : Nat) :
    Evolves P view (view.moveToStore index) := by
  unfold moveToStore
  cases view.element index with
  | none => exact .refl view
  | some current => exact .of_record (.define .refl (plain current) _ _) rfl rfl

theorem evolves_defineStored (plain : ∀ value, P (.plain value)) (given : P desc) (view : View)
    (index : Nat) (extensible : Bool) :
    Evolves P view (view.defineStored index desc extensible).2 := by
  have moved := evolves_moveToStore plain view index
  have defined : Record.Evolves P (view.moveToStore index).record
      ((view.moveToStore index).record.define (.index index) desc extensible).2 :=
    .define .refl given _ _
  refine moved.trans ?_
  unfold defineStored
  simp only
  split
  · exact .of_record defined rfl rfl
  · exact .of_record defined rfl rfl

theorem evolves_define (plain : ∀ value, P (.plain value)) (given : P desc) (view : View)
    (bound index : Nat) (extensible : Bool) :
    Evolves P view (view.define bound index desc extensible).2 := by
  have defined : Evolves P view (view.defineElement bound index desc extensible).2 := by
    unfold defineElement
    cases view.plainValue index desc with
    | none => exact evolves_defineStored plain given view index extensible
    | some value =>
      simp only
      split
      · exact .refl view
      · exact .of_record .refl rfl rfl
  unfold define
  by_cases beyond : (view.length ≤ index && !view.lengthWritable) = true
  · rw [if_pos beyond]
    exact .refl view
  · rw [if_neg beyond]
    simp only
    split
    · refine ⟨?_, fun fixed => ?_⟩
      · unfold reach
        split <;> exact defined.record
      · have below : ¬view.length ≤ index := by
          intro reached
          simp [reached, fixed] at beyond
        unfold reach
        rw [if_neg below]
        exact defined.length fixed
    · exact defined

theorem evolves_delete (view : View) (index : Nat) : Evolves P view (view.delete index).2 := by
  unfold delete
  split
  · exact .of_record .refl rfl rfl
  · exact .of_record (.delete .refl _) rfl rfl

theorem evolves_deleteEach (indices : List Nat) (view : View) :
    Evolves P view (view.deleteEach indices).2 := by
  induction indices generalizing view with
  | nil => exact .refl view
  | cons index rest ih =>
    have deleted : Evolves P view (view.delete index).2 := evolves_delete view index
    unfold deleteEach
    simp only
    split
    · exact deleted.trans (ih _)
    · exact deleted

/-- The length property that stays read-only stays as it is. -/
theorem length_of_sameValue (view : View) {slot : Slot}
    (same : slot.value.sameValue (.ofWord view.length) = true) :
    (view.setLengthSlot slot).length = view.length := by
  have number : slot.value.toNumber = (Value.ofWord view.length).toNumber := by
    unfold Value.sameValue at same
    split at same
    · exact of_decide_eq_true same
    · rw [of_decide_eq_true same]
  unfold setLengthSlot
  simp only [number]
  cases truncated : (Value.ofWord view.length).toNumber.truncate with
  | none => rfl
  | some whole =>
    simp only
    split
    · rename_i word
      have equal := Value.eq_of_truncate_ofWord truncated word.2
      omega
    · rfl

theorem evolves_applyLength (desc : Descriptor) (view : View) :
    Evolves P view (view.applyLength desc).2 := by
  unfold applyLength
  cases verdict : view.lengthSlot.validate desc with
  | rejected reason => exact .refl view
  | accepted =>
    have endures := Slot.endures_merge rfl rfl verdict
    refine ⟨.refl, fun fixed => ⟨?_, ?_⟩⟩
    · exact length_of_sameValue view (endures.value rfl fixed)
    · refine Bool.eq_false_iff.mpr fun writable => ?_
      have before : view.lengthWritable = true := endures.writable writable
      rw [fixed] at before
      cases before

theorem evolves_defineLength (doomed : List Nat) (desc : Descriptor) (view : View) :
    Evolves P view (view.defineLength doomed desc).2 := by
  unfold defineLength
  split
  · exact evolves_applyLength desc view
  · cases lengthOf? desc.value with
    | none => exact .refl view
    | some length =>
      rcases view.assignLength_cases length desc.attributes with
        ⟨_, same⟩ | ⟨_, same⟩ | ⟨_, writable, _, same⟩
      · simp only [same]
        exact evolves_applyLength _ view
      · simp only [same]
        exact .refl view
      · simp only [same]
        -- a length that is shortened was writable, so only the record has to be followed
        refine ⟨?_, fun fixed => Bool.noConfusion (fixed.symm.trans writable)⟩
        rw [record_shrink]
        exact (evolves_deleteEach doomed (view.lowered length desc.attributes)).record

end Elements.View

namespace Object.Content

variable {before between after content : Content}

/-- The stored properties. -/
def record : Content → Record
  | .ordinary record => record
  | .array view => view.record

/-- An object that became of another one of its kind. -/
def Evolves (P : Descriptor → Prop) : Content → Content → Prop
  | .ordinary before, .ordinary after => Record.Evolves P before after
  | .array before, .array after => Elements.View.Evolves P before after
  | _, _ => False

theorem Evolves.refl (content : Content) : content.Evolves P content := by
  cases content with
  | ordinary record => exact Record.Evolves.refl
  | array view => exact Elements.View.Evolves.refl view

theorem Evolves.trans (first : before.Evolves P between) (second : between.Evolves P after) :
    before.Evolves P after := by
  cases before <;> cases between <;> cases after <;>
    first
    | exact Record.Evolves.trans first second
    | exact Elements.View.Evolves.trans first second
    | exact first.elim
    | exact second.elim

theorem Evolves.record (evolves : before.Evolves P after) :
    Record.Evolves P before.record after.record := by
  cases before <;> cases after <;>
    first
    | exact evolves
    | exact Elements.View.Evolves.record evolves
    | exact evolves.elim

theorem evolves_define (plain : ∀ value, P (.plain value)) (given : P desc) (content : Content)
    (bound : Nat) (doomed : List Nat) (key : Key) (extensible : Bool) :
    content.Evolves P (content.define bound doomed key desc extensible).2 := by
  have defined : ∀ record : Record, Record.Evolves P record (record.define key desc extensible).2 :=
    fun record => .define .refl given key extensible
  cases content with
  | ordinary record => exact defined record
  | array view =>
    unfold Content.define
    cases key.role with
    | element index => exact Elements.View.evolves_define plain given view bound index extensible
    | length => exact Elements.View.evolves_defineLength doomed desc view
    | name => exact .of_record (defined view.record) rfl rfl

theorem evolves_delete (content : Content) (key : Key) : content.Evolves P (content.delete key).2 := by
  have deleted : ∀ record : Record, Record.Evolves P record (record.delete key).2 :=
    fun record => .delete .refl key
  cases content with
  | ordinary record => exact deleted record
  | array view =>
    unfold Content.delete
    cases key.role with
    | element index => exact Elements.View.evolves_delete view index
    | length => exact .refl (.array view)
    | name => exact .of_record (deleted view.record) rfl rfl

end Object.Content

/-! ### What becomes of the objects of a realm -/

/-- A definition that the request asks for uses a descriptor of one kind. -/
def Request.Gives (P : Descriptor → Prop) (request : Request) : Prop :=
  ∀ object key desc raises, request = .define object key desc raises → P desc

namespace Realm.Views

variable {views later : Views} {handle : Handle} {view moved : Object.View} {request : Request}
  {reply : Reply} {turn : Turn} {realm : Realm}

/-- Objects that were there evolved, and those that were not start without stored properties. -/
def Evolves (P : Descriptor → Prop) (views later : Views) : Prop :=
  ∀ handle after, later handle = some after →
    (views handle = none ∧ after.content.record = {}) ∨
      ∃ before, views handle = some before ∧ before.content.Evolves P after.content

theorem Evolves.refl (views : Views) : views.Evolves P views :=
  fun _ after shown => Or.inr ⟨after, shown, .refl after.content⟩

theorem evolves_update (shown : views handle = some view)
    (evolves : view.content.Evolves P moved.content) : views.Evolves P (views.update handle moved) := by
  intro other after shownAfter
  rcases of_update shownAfter with ⟨rfl, rfl⟩ | ⟨_, old⟩
  · exact Or.inr ⟨view, shown, evolves⟩
  · exact Evolves.refl views other after old

theorem Gains.evolves (gains : views.Gains view reply later) (empty : view.content.record = {}) :
    views.Evolves P later := by
  obtain ⟨handle, absent, _, rfl⟩ := gains
  intro other after shownAfter
  rcases of_update shownAfter with ⟨rfl, rfl⟩ | ⟨_, old⟩
  · exact Or.inl ⟨absent, empty⟩
  · exact Evolves.refl views other after old

theorem Step.evolves (step : views.Step request reply later) (plain : ∀ value, P (.plain value))
    (given : request.Gives P) : views.Evolves P later := by
  cases request with
  | intern text =>
    obtain ⟨_, rfl⟩ := step
    exact .refl _
  | newObject prototype => exact Gains.evolves step rfl
  | newUniqueObject prototype => exact Gains.evolves step rfl
  | newArray length => exact Gains.evolves step rfl
  | getOwn object key =>
    obtain ⟨_, _, _, rfl⟩ := step
    exact .refl _
  | getProperty object key =>
    obtain ⟨_, _, rfl⟩ := step
    exact .refl _
  | define object key desc raises =>
    obtain ⟨view, bound, doomed, shown, _, _, rfl⟩ := step
    exact evolves_update shown (Object.Content.evolves_define plain (given object key desc raises rfl)
      view.content bound doomed key view.extensible)
  | delete object key raises =>
    obtain ⟨view, shown, _, rfl⟩ := step
    exact evolves_update shown (Object.Content.evolves_delete view.content key)
  | keys object filter =>
    obtain ⟨_, _, _, _, _, rfl⟩ := step
    exact .refl _
  | preventExtensions object =>
    obtain ⟨view, shown, _, rfl⟩ := step
    exact evolves_update shown (.refl view.content)
  | setPrototype object prototype =>
    obtain ⟨view, shown, _, rfl⟩ := step
    exact evolves_update shown (.refl view.content)
  | makeUnique object =>
    obtain ⟨_, rfl⟩ := step
    exact .refl _
  | makeTransitionable object =>
    obtain ⟨_, rfl⟩ := step
    exact .refl _
  | collect roots =>
    intro handle after shown
    exact Or.inr ⟨after, step.2.1 handle after shown, .refl after.content⟩
  | read object key => exact step.elim
  | put object key value raises => exact step.elim

end Realm.Views

/-- In a turn objects evolve by the definitions that its request asks for. -/
theorem Realm.Holds.evolve {realm : Realm} {chart : Chart} {views : Views} {turn : Turn}
    (holds : realm.Holds chart views) (valid : views.Valid) (host : Host)
    (lawful : turn.isLawful realm = true) (plain : ∀ value, P (.plain value))
    (assignment : ∀ value, P (.assignment value)) (given : turn.request.Gives P) :
    ∃ (after : Chart) (later : Views), (turn.after host realm).Holds after later ∧ later.Valid ∧
      views.Evolves P later := by
  obtain ⟨after, later, held, validLater, rfl | ⟨request, next, rfl, asked, step⟩⟩ :=
    holds.takeTurn valid host lawful
  · exact ⟨after, later, held, validLater, .refl later⟩
  · have givenNext : next.Gives P := by
      rcases Request.of_ask asked with ⟨_, rfl⟩ | ⟨_, _, value, _, _, _, rfl, rfl | rfl⟩
      · exact given
      · intro object key desc raises same
        cases same
        exact assignment value
      · intro object key desc raises same
        cases same
        exact plain value
    exact ⟨after, later, held, validLater, step.evolves plain givenNext⟩

end HiddenClass
