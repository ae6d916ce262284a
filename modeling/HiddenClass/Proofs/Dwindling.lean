import HiddenClass.Proofs.Elements.Own
import HiddenClass.Proofs.Elements.Refused
import HiddenClass.Proofs.Lineage
import HiddenClass.Proofs.Realm.Every
import HiddenClass.Proofs.Tunables

/-!
Objects that were closed to extensions. From then on an object gains no key, whatever is defined or
assigned on it, and whichever of its elements move to its store.
-/

namespace HiddenClass

variable {key other : Key} {desc : Descriptor}

/-! ### Records -/

/-- What is not there is not defined where nothing may be added. -/
theorem Slot.isSome_define_inextensible (current : Option Slot) (desc : Descriptor) :
    (Slot.define current desc false).2.isSome = current.isSome := by
  cases current with
  | none => rfl
  | some slot =>
    unfold Slot.define
    cases verdict : slot.validate desc <;> simp only [verdict, Option.isSome_some]

theorem Record.Sound.isSome_define_inextensible {record : Record} (sound : record.Sound) (key : Key)
    (desc : Descriptor) (other : Key) :
    ((record.define key desc false).2.find? other).isSome = (record.find? other).isSome := by
  rw [(sound.define_eq key desc false).2]
  by_cases same : other = key
  · rw [if_pos same, Slot.isSome_define_inextensible, same]
  · rw [if_neg same]

theorem Record.Sound.isSome_of_delete {record : Record} (sound : record.Sound)
    (found : ((record.delete key).2.find? other).isSome = true) :
    (record.find? other).isSome = true := by
  obtain ⟨slot, present⟩ := Option.isSome_iff_exists.mp found
  exact Option.isSome_iff_exists.mpr ⟨slot, sound.find?_of_delete present⟩

/-! ### Arrays -/

namespace Elements.View

variable {view before between after : View} {index bound : Nat}

/-- Whether an array holds anything for a key, as an element or as a stored property. -/
def has (view : View) (key : Key) : Bool :=
  (view.record.find? key).isSome || key.index?.any fun index => (view.element index).isSome

theorem has_iff : view.has key = true ↔ (view.record.find? key).isSome = true ∨
    ∃ index, key = .index index ∧ (view.element index).isSome = true := by
  unfold has
  rw [Bool.or_eq_true]
  cases key with
  | index n => simp [Key.index?]
  | named id => simp [Key.index?]

/-- An array that holds nothing for a key for which the first held nothing. -/
def Dwindles (before after : View) : Prop := ∀ key, after.has key = true → before.has key = true

theorem Dwindles.refl (view : View) : view.Dwindles view := fun _ held => held

theorem Dwindles.trans (first : before.Dwindles between) (second : between.Dwindles after) :
    before.Dwindles after := fun key held => first key (second key held)

/-- Fewer elements, and a record with no more keys. -/
theorem dwindles_of_less (element : ∀ index, (after.element index).isSome = true →
      (before.element index).isSome = true)
    (record : ∀ key, (after.record.find? key).isSome = true →
      (before.record.find? key).isSome = true) : before.Dwindles after := by
  intro key held
  rcases has_iff.mp held with stored | ⟨index, same, present⟩
  · exact has_iff.mpr (Or.inl (record key stored))
  · exact has_iff.mpr (Or.inr ⟨index, same, element index present⟩)

theorem dwindles_drop (index : Nat) (view : View) : view.Dwindles (view.drop index) := by
  refine dwindles_of_less (fun other present => ?_) fun _ stored => stored
  rw [element_drop] at present
  split at present
  · cases present
  · exact present

theorem dwindles_delete (sound : view.Sound) (index : Nat) : view.Dwindles (view.delete index).2 := by
  unfold View.delete
  split
  · exact dwindles_drop index view
  · exact dwindles_of_less (fun _ present => present) fun _ found => sound.record.isSome_of_delete found

theorem dwindles_deleteEach (sound : view.Sound) (indices : List Nat) :
    view.Dwindles (view.deleteEach indices).2 := by
  induction indices generalizing view with
  | nil => exact .refl view
  | cons index rest ih =>
    have deleted := dwindles_delete sound index
    unfold deleteEach
    simp only
    split
    · exact deleted.trans (ih (sound.delete index))
    · exact deleted

theorem dwindles_settle (length : Nat) (writable : Bool) (view : View) :
    view.Dwindles (view.settle length writable) := by
  refine dwindles_of_less (fun index present => ?_) fun _ stored => stored
  change (if index < length then view.element index else none).isSome = true at present
  split at present
  · exact present
  · cases present

theorem dwindles_applyLength (desc : Descriptor) (view : View) :
    view.Dwindles (view.applyLength desc).2 := by
  unfold applyLength
  split
  · exact dwindles_of_less (fun _ present => present) fun _ stored => stored
  · exact .refl view

theorem dwindles_shrink (sound : view.Sound) (doomed : List Nat) (length : Nat) (writable : Bool) :
    view.Dwindles (view.shrink doomed length writable).2 := by
  have cleared := dwindles_deleteEach sound doomed
  unfold shrink
  simp only
  split
  · exact cleared.trans (dwindles_settle _ writable _)
  · split
    · exact cleared.trans (dwindles_settle _ writable _)
    · exact cleared

theorem dwindles_defineLength (sound : view.Sound) (doomed : List Nat) (desc : Descriptor) :
    view.Dwindles (view.defineLength doomed desc).2 := by
  unfold defineLength
  split
  · exact dwindles_applyLength desc view
  · cases lengthOf? desc.value with
    | none => exact .refl view
    | some length =>
      rcases view.assignLength_cases length desc.attributes with
        ⟨_, same⟩ | ⟨_, same⟩ | ⟨_, _, _, same⟩
      · simp only [same]
        exact dwindles_applyLength _ view
      · simp only [same]
        exact .refl view
      · simp only [same]
        have lowered : view.Dwindles (view.lowered length desc.attributes) :=
          dwindles_of_less (fun _ present => present) fun _ stored => stored
        exact lowered.trans (dwindles_shrink (sound.lowered length desc.attributes) doomed length _)

/-- The store may be added to when an element moves there, but what it gains the elements lose. -/
theorem dwindles_moveToStore (sound : view.Sound) (index : Nat) :
    view.Dwindles (view.moveToStore index) := by
  unfold moveToStore
  cases held : view.element index with
  | none => exact .refl view
  | some current =>
    intro key found
    by_cases own : key = .index index
    · exact has_iff.mpr (Or.inr ⟨index, own, Option.isSome_iff_exists.mpr ⟨current, held⟩⟩)
    · apply dwindles_drop index view
      rcases has_iff.mp found with stored | present
      · rw [sound.record.find?_define_of_ne own] at stored
        exact has_iff.mpr (Or.inl stored)
      · exact has_iff.mpr (Or.inr present)

theorem dwindles_defineStored (sound : view.Sound) (index : Nat) (desc : Descriptor) :
    view.Dwindles (view.defineStored index desc false).2 := by
  refine (dwindles_moveToStore sound index).trans ?_
  have kept := (sound.moveToStore index).record.isSome_define_inextensible (.index index) desc
  unfold defineStored
  simp only
  split
  · exact dwindles_of_less (fun _ present => present) fun key found => kept key ▸ found
  · exact dwindles_of_less (fun _ present => present) fun key found => kept key ▸ found

theorem dwindles_put {value current : Value} (peeked : view.peek index = some current) (bound : Nat) :
    view.Dwindles (view.put bound index value) := by
  refine dwindles_of_less (fun other present => ?_) fun _ stored => stored
  by_cases same : other = index
  · rw [same]
    exact Option.isSome_iff_exists.mpr ⟨current, (Option.filter_eq_some_iff.mp peeked).1⟩
  · rw [element_put, if_neg same] at present
    exact present

theorem dwindles_define (sound : view.Sound) (bound index : Nat) (desc : Descriptor) :
    view.Dwindles (view.define bound index desc false).2 := by
  have defined : view.Dwindles (view.defineElement bound index desc false).2 := by
    unfold defineElement
    cases view.plainValue index desc with
    | none => exact dwindles_defineStored sound index desc
    | some value =>
      cases peeked : view.peek index with
      | none => exact .refl view
      | some current => exact dwindles_put peeked bound
  unfold View.define
  split
  · exact .refl view
  · simp only
    split
    · unfold reach
      split
      · exact defined.trans (dwindles_of_less (fun _ present => present) fun _ stored => stored)
      · exact defined
    · exact defined

end Elements.View

/-! ### Objects -/

namespace Object.Content

variable {content before between after : Content}

/-- Whether an object holds anything for a key. -/
def has : Content → Key → Bool
  | .ordinary record, key => (record.find? key).isSome
  | .array view, key => key = Key.length || view.has key

/-- An object that holds nothing for a key for which the first held nothing. -/
def Dwindles (before after : Content) : Prop :=
  ∀ key, after.has key = true → before.has key = true

theorem Dwindles.refl (content : Content) : content.Dwindles content := fun _ held => held

theorem Dwindles.trans (first : before.Dwindles between) (second : between.Dwindles after) :
    before.Dwindles after := fun key held => first key (second key held)

theorem dwindles_array {view later : Elements.View} (dwindles : view.Dwindles later) :
    (Content.array view).Dwindles (.array later) := by
  intro key held
  rcases (Bool.or_eq_true _ _).mp held with length | present
  · exact (Bool.or_eq_true _ _).mpr (Or.inl length)
  · exact (Bool.or_eq_true _ _).mpr (Or.inr (dwindles key present))

/-- A definition adds nothing where nothing may be added. -/
theorem dwindles_define (sound : content.Sound) (bound : Nat) (doomed : List Nat) (key : Key)
    (desc : Descriptor) : content.Dwindles (content.define bound doomed key desc false).2 := by
  cases content with
  | ordinary record =>
    intro other held
    exact (Record.Sound.isSome_define_inextensible sound key desc other).symm.trans held
  | array view =>
    unfold Content.define
    cases key.role with
    | element index =>
      exact dwindles_array (Elements.View.dwindles_define sound bound index desc)
    | length => exact dwindles_array (Elements.View.dwindles_defineLength sound doomed desc)
    | name =>
      have kept := sound.record.isSome_define_inextensible key desc
      exact dwindles_array (Elements.View.dwindles_of_less (fun _ present => present)
        fun other found => kept other ▸ found)

theorem dwindles_delete (sound : content.Sound) (key : Key) :
    content.Dwindles (content.delete key).2 := by
  cases content with
  | ordinary record => exact fun _ held => Record.Sound.isSome_of_delete sound held
  | array view =>
    unfold Content.delete
    cases key.role with
    | element index => exact dwindles_array (Elements.View.dwindles_delete sound index)
    | length => exact .refl (.array view)
    | name =>
      exact dwindles_array (Elements.View.dwindles_of_less (fun _ present => present)
        fun _ found => sound.record.isSome_of_delete found)

/-- Where there are no holes, an object has a property for exactly what it holds. -/
theorem isSome_getOwn (sound : content.Sound) (solid : content.Proper Value.Solid) (key : Key) :
    (content.getOwn key).isSome = content.has key := by
  cases content with
  | ordinary record => exact Option.isSome_map
  | array view =>
    cases key with
    | index n =>
      have whole : view.element n ≠ some .hole := fun held => solid.element n .hole held rfl
      rw [getOwn_index sound whole, Option.isSome_map, Elements.View.isSome_property]
      exact Bool.or_comm ..
    | named id =>
      by_cases same : Key.named id = Key.length
      · rw [same]
        rfl
      · rw [getOwn_named same, Option.isSome_map, has, decide_eq_false same, Elements.View.has]
        exact (Bool.or_false _).symm

end Object.Content

/-! ### Requests without holes -/

namespace Request

/-- No hole is among the values that are handed in. -/
def Solid : Request → Prop
  | .put _ _ value _ => value.Solid
  | .define _ _ desc _ => desc.All Value.Solid
  | _ => True

instance : DecidablePred Solid
  | .put _ _ value _ => inferInstanceAs (Decidable value.Solid)
  | .define _ _ desc _ => inferInstanceAs (Decidable (desc.All Value.Solid))
  | .intern _ | .newObject _ | .newUniqueObject _ | .newArray _ | .getOwn .. | .getProperty ..
  | .read .. | .delete .. | .keys .. | .preventExtensions _ | .setPrototype .. | .makeUnique _
  | .makeTransitionable _ | .collect _ => inferInstanceAs (Decidable True)

variable {request next : Request} {realm : Realm}

theorem Solid.of_ask (solid : request.Solid) (asked : (request.pursue realm).2 = .ask next) :
    next.Solid := by
  rcases Request.of_ask asked with ⟨_, rfl⟩ | ⟨_, _, _, _, _, rfl, rfl, rfl | rfl⟩
  · exact solid
  · exact Object.View.solid_data solid _
  · exact Object.View.solid_data solid _

end Request

/-! ### Realms -/

namespace Realm

variable {host : Host} {realm : Realm} {chart : Chart} {views later : Views} {view : Object.View}
  {object handle : Handle} {next : Request} {reply : Reply} {turn : Turn} {turns : List Turn}

namespace Views

/-- No property holds a hole. -/
def Solid (views : Views) : Prop :=
  ∀ handle view, views handle = some view → view.content.Proper Value.Solid

theorem solid_empty : Solid fun _ => none := fun _ _ shown => by cases shown

/-- An object that may not be extended, and holds nothing for a key for which the content holds
nothing. -/
def Capped (views : Views) (object : Handle) (content : Object.Content) : Prop :=
  ∀ view, views object = some view → view.extensible = false ∧ content.Dwindles view.content

variable {content : Object.Content}

theorem Capped.update (capped : views.Capped object content)
    (changed : object = handle → view.extensible = false ∧ content.Dwindles view.content) :
    (views.update handle view).Capped object content := by
  intro shown found
  rcases of_update found with ⟨same, rfl⟩ | ⟨_, old⟩
  · exact changed same
  · exact capped shown old

theorem Capped.gains (capped : views.Capped object content) (live : views.Live object)
    (gains : views.Gains view reply later) : later.Capped object content := by
  obtain ⟨handle, absent, _, rfl⟩ := gains
  apply capped.update
  intro same
  obtain ⟨shown, found⟩ := live
  rw [same, absent] at found
  cases found

/-- No request opens an object again, or adds a key to it. -/
theorem Capped.step (capped : views.Capped object content) (live : views.Live object)
    (valid : views.Valid) (step : views.Step next reply later) : later.Capped object content := by
  cases next with
  | intern text => exact step.2 ▸ capped
  | newObject prototype | newUniqueObject prototype | newArray length => exact capped.gains live step
  | getOwn other key =>
    obtain ⟨_, _, _, rfl⟩ := step
    exact capped
  | getProperty other key =>
    obtain ⟨_, _, rfl⟩ := step
    exact capped
  | define other key desc raises =>
    obtain ⟨view, bound, doomed, shown, _, _, rfl⟩ := step
    apply capped.update
    rintro rfl
    obtain ⟨fixed, dwindles⟩ := capped view shown
    refine ⟨fixed, dwindles.trans ?_⟩
    show view.content.Dwindles (view.content.define bound doomed key desc view.extensible).2
    rw [fixed]
    exact Object.Content.dwindles_define (valid.sound object view shown) bound doomed key desc
  | delete other key raises =>
    obtain ⟨view, shown, _, rfl⟩ := step
    apply capped.update
    rintro rfl
    obtain ⟨fixed, dwindles⟩ := capped view shown
    exact ⟨fixed, dwindles.trans
      (Object.Content.dwindles_delete (valid.sound object view shown) key)⟩
  | keys other filter =>
    obtain ⟨_, _, _, _, _, rfl⟩ := step
    exact capped
  | preventExtensions other =>
    obtain ⟨view, shown, _, rfl⟩ := step
    apply capped.update
    rintro rfl
    exact ⟨rfl, (capped view shown).2⟩
  | setPrototype other prototype =>
    obtain ⟨view, shown, _, rfl⟩ := step
    apply capped.update
    rintro rfl
    exact capped view shown
  | makeUnique other | makeTransitionable other => exact step.2 ▸ capped
  | collect roots => exact fun view shown => capped view (step.2.1 object view shown)
  | read other key | put other key value raises => exact step.elim

end Views

/-- Requests without holes leave none. -/
theorem lasting_solid :
    Lasting (fun content => content.Proper Value.Solid) Request.Solid where
  ordinary := fun _ _ found => by cases found
  array := fun _ => Elements.View.proper_ofLength _
  define := fun given _ sound solid bound doomed _ extensible =>
    Object.Content.proper_define Value.solid_undefined sound solid given bound doomed _ extensible
  delete := fun _ _ sound solid => Object.Content.proper_delete sound solid _
  ask := fun given asked => given.of_ask asked

/-- Turns without holes leave none, and what was capped stays so. -/
theorem Holds.solid_turn (holds : realm.Holds chart views) (valid : views.Valid)
    (solid : views.Solid) (host : Host) (lawful : turn.isLawful realm = true)
    (given : turn.request.Solid) :
    ∃ (after : Chart) (later : Views), (turn.after host realm).Holds after later ∧ later.Valid ∧
      later.Solid ∧ ∀ object content, views.Live object → views.Capped object content →
        later.Capped object content := by
  obtain ⟨after, later, held, validLater, solidLater, rfl | ⟨_, next, _, _, _, step⟩⟩ :=
    holds.every_turn valid solid lasting_solid host lawful given
  · exact ⟨after, later, held, validLater, solidLater, fun _ _ _ capped => capped⟩
  · exact ⟨after, later, held, validLater, solidLater,
      fun _ _ live capped => capped.step live valid step⟩

theorem Holds.solid_course (holds : realm.Holds chart views) (valid : views.Valid)
    (solid : views.Solid) (lawful : realm.lawful host turns = true)
    (given : ∀ turn ∈ turns, turn.request.Solid) :
    ∃ (after : Chart) (later : Views), (realm.course host turns).Holds after later ∧ later.Valid ∧
      later.Solid :=
  holds.every_course valid solid lasting_solid lawful given

/-- An object that is not freed in a course stays capped. -/
theorem Holds.capped_course {content : Object.Content} (holds : realm.Holds chart views)
    (valid : views.Valid) (solid : views.Solid) (live : views.Live object)
    (capped : views.Capped object content) (lawful : realm.lawful host turns = true)
    (given : ∀ turn ∈ turns, turn.request.Solid)
    (survives : realm.survives host object turns = true) :
    ∃ (after : Chart) (later : Views), (realm.course host turns).Holds after later ∧ later.Valid ∧
      later.Solid ∧ later.Live object ∧ later.Capped object content := by
  induction turns generalizing realm chart views with
  | nil => exact ⟨chart, views, holds, valid, solid, live, capped⟩
  | cons turn rest ih =>
    obtain ⟨first, others⟩ := lawful_cons.mp lawful
    obtain ⟨givenFirst, givenRest⟩ := List.forall_mem_cons.mp given
    obtain ⟨contained, survivesRest⟩ := survives_cons.mp survives
    obtain ⟨between, seen, held, validBetween, solidBetween, stays⟩ :=
      holds.solid_turn valid solid host first givenFirst
    exact ih held validBetween solidBetween (held.live_iff.mpr contained)
      (stays object content live capped) others givenRest survivesRest

theorem survives_append {later : List Turn} : realm.survives host object (turns ++ later) = true ↔
    realm.survives host object turns = true ∧
      (realm.course host turns).survives host object later = true := by
  induction turns generalizing realm with
  | nil => simp [survives, course]
  | cons turn rest ih =>
    rw [List.cons_append, survives_cons, survives_cons, ih, and_assoc, course_cons]

/-- An object has a property for exactly what it holds. -/
theorem Holds.owns_eq_has (holds : realm.Holds chart views) (valid : views.Valid)
    (solid : views.Solid) (shown : views object = some view) (key : Key) :
    realm.owns object key = view.content.has key := by
  rw [holds.owns_of_shown shown]
  exact Object.Content.isSome_getOwn (valid.sound object view shown) (solid object view shown) key

end Realm

end HiddenClass
