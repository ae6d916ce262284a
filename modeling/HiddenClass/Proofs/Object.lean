import HiddenClass.Object
import HiddenClass.Proofs.Elements.Refinement

/-!
Object views: what an object shows of itself, apart from its shape and its containers.
-/

namespace HiddenClass

/-- What a key stands for in an array. An index past the largest array index is a name. -/
inductive Key.Role where
  | element (index : Nat)
  | length
  | name
deriving DecidableEq, Repr

namespace Key

def role : Key → Role
  | .index n => if n < indexBound then .element n else .name
  | .named id => if Key.named id = Key.length then .length else .name

variable {key : Key}

theorem role_index (n : Nat) :
    (Key.index n).role = if n < indexBound then .element n else .name := rfl

theorem role_named (id : Nat) :
    (Key.named id).role = if Key.named id = Key.length then .length else .name := rfl

theorem of_role_element {index : Nat} (role : key.role = .element index) :
    key = .index index ∧ index < indexBound := by
  cases key with
  | index n =>
    rw [role_index] at role
    by_cases small : n < indexBound
    · rw [if_pos small] at role
      cases role
      exact ⟨rfl, small⟩
    · rw [if_neg small] at role
      cases role
  | named id =>
    rw [role_named] at role
    by_cases same : Key.named id = Key.length
    · rw [if_pos same] at role
      cases role
    · rw [if_neg same] at role
      cases role

theorem of_role_length (role : key.role = .length) : key = Key.length := by
  cases key with
  | index n =>
    rw [role_index] at role
    by_cases small : n < indexBound
    · rw [if_pos small] at role
      cases role
    · rw [if_neg small] at role
      cases role
  | named id =>
    rw [role_named] at role
    by_cases same : Key.named id = Key.length
    · exact same
    · rw [if_neg same] at role
      cases role

theorem of_role_name (role : key.role = .name) :
    key ≠ Key.length ∧ ∀ index < indexBound, key ≠ .index index := by
  cases key with
  | index n =>
    rw [role_index] at role
    by_cases small : n < indexBound
    · rw [if_pos small] at role
      cases role
    · exact ⟨Key.noConfusion, fun index bound same => small (Key.index.inj same ▸ bound)⟩
  | named id =>
    rw [role_named] at role
    by_cases same : Key.named id = Key.length
    · rw [if_pos same] at role
      cases role
    · exact ⟨same, fun _ _ => Key.noConfusion⟩

end Key

namespace Object

inductive Content where
  | ordinary (record : Record)
  | array (view : Elements.View)

structure View where
  content : Content
  extensible : Bool := true
  prototype : Option Handle

namespace Content

def getOwn : Content → Key → Option Descriptor
  | .ordinary record, key => (record.find? key).map Slot.toDescriptor
  | .array view, key =>
    match key.role with
    | .element index => view.getOwn index
    | .length => some view.lengthSlot.toDescriptor
    | .name => (view.record.find? key).map Slot.toDescriptor

def define (bound : Nat) (doomed : List Nat) (key : Key) (desc : Descriptor) (extensible : Bool) :
    Content → Except Fault Verdict × Content
  | .ordinary record =>
    let outcome := record.define key desc extensible
    (.ok outcome.1, .ordinary outcome.2)
  | .array view =>
    match key.role with
    | .element index =>
      let outcome := view.define bound index desc extensible
      (.ok outcome.1, .array outcome.2)
    | .length =>
      let outcome := view.defineLength doomed desc
      (outcome.1, .array outcome.2)
    | .name =>
      let outcome := view.record.define key desc extensible
      (.ok outcome.1, .array { view with record := outcome.2 })

def delete (key : Key) : Content → Verdict × Content
  | .ordinary record =>
    let outcome := record.delete key
    (outcome.1, .ordinary outcome.2)
  | .array view =>
    match key.role with
    | .element index =>
      let outcome := view.delete index
      (outcome.1, .array outcome.2)
    | .length => (.rejected .notDeletable, .array view)
    | .name =>
      let outcome := view.record.delete key
      (outcome.1, .array { view with record := outcome.2 })

def Lists : Content → KeyFilter → List Key → Prop
  | .ordinary record, filter, keys => keys = record.keys filter
  | .array view, filter, keys => view.Lists filter keys

/-- The indices that are visited when the array is shortened to a length. -/
def Doomed : Content → Nat → List Nat → Prop
  | .ordinary _, _, _ => True
  | .array view, length, indices => view.Doomed length view.length indices

def Sound : Content → Prop
  | .ordinary record => record.Sound
  | .array view => view.Sound

def Holds : Content → Object → Chart → Prop
  | .ordinary record, object, chart => object.kind = .ordinary ∧ object.store.Holds chart record
  | .array view, object, chart =>
    ∃ elements, object.kind = .array elements ∧ elements.Holds object.store chart view

section Roles

variable {array : Elements.View} {key : Key} {index : Nat}

theorem getOwn_element (role : key.role = .element index) :
    (Content.array array).getOwn key = array.getOwn index := by
  simp only [getOwn, role]

theorem getOwn_length (role : key.role = .length) :
    (Content.array array).getOwn key = some array.lengthSlot.toDescriptor := by
  simp only [getOwn, role]

theorem getOwn_name (role : key.role = .name) :
    (Content.array array).getOwn key = (array.record.find? key).map Slot.toDescriptor := by
  simp only [getOwn, role]

end Roles

theorem Lists.unique {content : Content} {filter : KeyFilter} {keys others : List Key}
    (lists : content.Lists filter keys) (listsOthers : content.Lists filter others) :
    keys = others := by
  cases content with
  | ordinary record => exact lists.trans listsOthers.symm
  | array view => exact Elements.View.Lists.unique lists listsOthers

end Content

namespace View

variable {view : View}

def getOwn (view : View) (key : Key) : Option Descriptor := view.content.getOwn key

def define (bound : Nat) (doomed : List Nat) (key : Key) (desc : Descriptor) (view : View) :
    Except Fault Verdict × View :=
  let outcome := view.content.define bound doomed key desc view.extensible
  (outcome.1, { view with content := outcome.2 })

def delete (key : Key) (view : View) : Verdict × View :=
  let outcome := view.content.delete key
  (outcome.1, { view with content := outcome.2 })

end View

/-! ### Soundness -/

namespace Content

variable {content : Content}

/-- A name may be written in the record of an array. -/
theorem sound_record {view : Elements.View} {record : Record} {key : Key} (sound : view.Sound)
    (role : key.role = .name) (recordSound : record.Sound)
    (kept : ∀ other, other ≠ key → record.find? other = view.record.find? other) :
    Elements.View.Sound { view with record } := by
  obtain ⟨notLength, notIndex⟩ := Key.of_role_name role
  have stored : ∀ index < Key.indexBound, record.find? (.index index) = view.stored index :=
    fun index small => kept _ (notIndex index small).symm
  exact {
    record := recordSound
    index := sound.index
    apart := fun index held => (stored index (sound.index index held)).trans (sound.apart index held)
    dense := fun dense index small => (stored index small).trans (sound.dense dense index small)
    length := (kept _ notLength.symm).trans sound.length }

theorem Sound.define (sound : content.Sound) (bound : Nat) (doomed : List Nat) (key : Key)
    (desc : Descriptor) (extensible : Bool) :
    (content.define bound doomed key desc extensible).2.Sound := by
  cases content with
  | ordinary record => exact Record.Sound.define sound key desc extensible
  | array view =>
    unfold Content.define
    cases role : key.role with
    | element index =>
      exact Elements.View.Sound.define sound (Key.of_role_element role).2 bound desc extensible
    | length => exact Elements.View.Sound.defineLength sound doomed desc
    | name =>
      exact sound_record sound role (sound.record.define key desc extensible)
        fun other different => sound.record.find?_define_of_ne different desc extensible

theorem Sound.delete (sound : content.Sound) (key : Key) : (content.delete key).2.Sound := by
  cases content with
  | ordinary record => exact Record.Sound.delete sound key
  | array view =>
    unfold Content.delete
    cases role : key.role with
    | element index => exact Elements.View.Sound.delete sound index
    | length => exact sound
    | name =>
      exact sound_record sound role (sound.record.delete key)
        fun other different => sound.record.find?_delete_of_ne different

theorem fault_define {bound : Nat} {doomed : List Nat} {key : Key} {desc : Descriptor}
    {extensible : Bool} {fault : Fault}
    (stopped : (content.define bound doomed key desc extensible).1 = .error fault) :
    fault = .error .invalidLength ∨ fault = .overflow := by
  cases content with
  | ordinary record => cases stopped
  | array view =>
    unfold Content.define at stopped
    cases role : key.role with
    | length =>
      rw [role] at stopped
      exact Elements.View.fault_defineLength stopped
    | _ =>
      rw [role] at stopped
      cases stopped

end Content

/-! ### Refinement -/

/-- The object has the content of the view. -/
structure Holds (object : Object) (chart : Chart) (view : View) : Prop where
  content : view.content.Holds object chart
  extensible : object.extensible = view.extensible
  prototype : object.prototype = view.prototype

/-- The action comes to the answer and leaves an object with the content of the view. -/
def Concludes {α : Type} (action : Action α) (object : Object) (chart : Chart)
    (answer : Except Fault α) (view : View) : Prop :=
  ∃ (moved : Object) (after : Chart),
    action ⟨object, chart.shapes⟩ = Action.settled answer ⟨moved, after.shapes⟩ ∧
    moved.Holds after view ∧ Chart.Moves chart after object.store.shape moved.store.shape

variable {object : Object} {chart after : Chart} {view : View} {α : Type} {key : Key}

theorem Content.Holds.store {content : Content} (holds : content.Holds object chart) :
    ∃ record, object.store.Holds chart record := by
  cases content with
  | ordinary record => exact ⟨record, holds.2⟩
  | array view =>
    obtain ⟨elements, _, held⟩ := holds
    exact ⟨view.record, held.store⟩

theorem Content.Holds.keep {content : Content} (holds : content.Holds object chart)
    (spares : Chart.Spares chart after object.store.shape) : content.Holds object after := by
  cases content with
  | ordinary record => exact ⟨holds.1, holds.2.keep spares⟩
  | array view =>
    obtain ⟨elements, kind, held⟩ := holds
    exact ⟨elements, kind, held.withStore (held.store.keep spares)⟩

/-- The content is that of the store and the kind alone. -/
theorem Content.Holds.congr {content : Content} {changed : Object}
    (holds : content.Holds object chart) (kind : changed.kind = object.kind)
    (store : changed.store = object.store) : content.Holds changed chart := by
  cases content with
  | ordinary record => exact ⟨kind.trans holds.1, store ▸ holds.2⟩
  | array view =>
    obtain ⟨elements, known, held⟩ := holds
    exact ⟨elements, kind.trans known, store ▸ held⟩

/-- A shape of the same layout may take the place of the first. -/
theorem Content.Holds.reshape {content : Content} {own : Handle}
    (holds : content.Holds object chart) (live : after.Live own)
    (layout : after.layouts own = chart.layouts object.store.shape) :
    content.Holds { object with store := { object.store with shape := own } } after := by
  have reshaped : ∀ record, object.store.Holds chart record →
      Store.Holds { object.store with shape := own } after record :=
    fun record held => ⟨live, layout.trans held.layout, held.room, held.slot⟩
  cases content with
  | ordinary record => exact ⟨holds.1, reshaped record holds.2⟩
  | array view =>
    obtain ⟨elements, known, held⟩ := holds
    exact ⟨elements, known, held.withStore (reshaped _ held.store)⟩

/-- The content stays as it is when the shape does. -/
theorem Holds.keep (holds : object.Holds chart view)
    (spares : Chart.Spares chart after object.store.shape) : object.Holds after view :=
  ⟨holds.content.keep spares, holds.extensible, holds.prototype⟩

theorem Holds.live (holds : object.Holds chart view) : chart.Live object.store.shape := by
  obtain ⟨record, held⟩ := holds.content.store
  exact held.live

/-- What an action on the store does to an ordinary object. -/
theorem Concludes.of_ordinary {action : Store.Action α} {answer : α} {record : Record}
    (holds : object.Holds chart view) (kind : object.kind = .ordinary)
    (ran : ∃ (kept : Store) (after : Chart),
      action ⟨object.store, chart.shapes⟩ = .ok answer ⟨kept, after.shapes⟩ ∧
      kept.Holds after record ∧ Chart.Moves chart after object.store.shape kept.shape) :
    Concludes (onStore action) object chart (.ok answer) { view with content := .ordinary record } := by
  obtain ⟨kept, after, ran, held, moves⟩ := ran
  refine ⟨{ object with store := kept }, after, ?_, ?_, moves⟩
  · unfold onStore Action.focus
    simp only [ran]
    rfl
  · exact ⟨⟨kind, held⟩, holds.extensible, holds.prototype⟩

/-- What an action on the store does to an array. -/
theorem Concludes.of_store {action : Store.Action α} {answer : α} {record : Record}
    {elements : Elements} {array : Elements.View} (holds : object.Holds chart view)
    (kind : object.kind = .array elements) (held : elements.Holds object.store chart array)
    (ran : ∃ (kept : Store) (after : Chart),
      action ⟨object.store, chart.shapes⟩ = .ok answer ⟨kept, after.shapes⟩ ∧
      kept.Holds after record ∧ Chart.Moves chart after object.store.shape kept.shape) :
    Concludes (onStore action) object chart (.ok answer)
      { view with content := .array { array with record } } := by
  obtain ⟨kept, after, ran, heldAfter, moves⟩ := ran
  refine ⟨{ object with store := kept }, after, ?_, ?_, moves⟩
  · unfold onStore Action.focus
    simp only [ran]
    rfl
  · exact ⟨⟨elements, kind, held.withStore heldAfter⟩, holds.extensible, holds.prototype⟩

/-- What an action on the elements does to an array. -/
theorem Concludes.of_elements {action : Elements.Action α} {answer : Except Fault α}
    {elements : Elements} {array : Elements.View} (holds : object.Holds chart view)
    (concludes : Elements.Concludes action elements object.store chart answer array) :
    Concludes (onElements elements action) object chart answer
      { view with content := .array array } := by
  obtain ⟨moved, kept, after, ran, held, moves⟩ := concludes
  refine ⟨{ object with store := kept, kind := .array moved }, after, ?_, ?_, moves⟩
  · unfold onElements Action.focus
    simp only [ran]
    cases answer <;> rfl
  · exact ⟨⟨moved, rfl, held⟩, holds.extensible, holds.prototype⟩

theorem Concludes.unchanged (holds : object.Holds chart view) (answer : α) :
    Concludes (pure answer) object chart (.ok answer) view :=
  ⟨object, chart, rfl, holds, (Chart.Extends.refl chart).moves holds.live⟩

theorem place_array {elements : Elements} (kind : object.kind = .array elements) (key : Key) :
    object.place key =
      match key.role with
      | .element index => .element elements index
      | .length => .length elements
      | .name => .store := by
  unfold place
  rw [kind]
  cases key with
  | index n =>
    rw [Key.role_index]
    by_cases small : n < Key.indexBound
    · simp only [if_pos small]
    · simp only [if_neg small]
  | named id =>
    rw [Key.role_named]
    by_cases same : Key.named id = Key.length
    · simp only [if_pos same]
    · simp only [if_neg same]

theorem place_ordinary (kind : object.kind = .ordinary) (key : Key) : object.place key = .store := by
  unfold place
  rw [kind]

namespace Concludes

variable {β : Type} {action : Action α} {answer : α}

theorem get {next : Context → Action β} {result : Except Fault β}
    (second : Concludes (next ⟨object, chart.shapes⟩) object chart result view) :
    Concludes (get >>= next) object chart result view := second

theorem map (first : Concludes action object chart (.ok answer) view) (change : α → β) :
    Concludes (action >>= fun answer => pure (change answer)) object chart (.ok (change answer))
      view := by
  obtain ⟨moved, after, ran, held, moves⟩ := first
  exact ⟨moved, after, Action.bind_ok ran _, held, moves⟩

end Concludes

/-- What a look at the store finds. -/
theorem slot_ok {record : Record} (held : object.store.Holds chart record) (key : Key) :
    ∃ (kept : Store) (after : Chart),
      Store.slot? key ⟨object.store, chart.shapes⟩ = .ok (record.find? key) ⟨kept, after.shapes⟩ ∧
      kept.Holds after record ∧ Chart.Moves chart after object.store.shape kept.shape := by
  obtain ⟨after, agrees, ran⟩ := held.slot?_ok key
  exact ⟨object.store, after, ran, held.extend agrees.extends, agrees.extends.moves held.live⟩

theorem Holds.getOwn (holds : object.Holds chart view) (key : Key) :
    Concludes (getOwn key) object chart (.ok (view.getOwn key)) view := by
  obtain ⟨content, extensible, prototype⟩ := view
  have held := holds.content
  unfold Object.getOwn
  refine Concludes.get ?_
  cases content with
  | ordinary record =>
    simp only [place_ordinary held.1]
    exact (Concludes.of_ordinary holds held.1 (slot_ok held.2 key)).map _
  | array array =>
    obtain ⟨elements, kind, held⟩ := held
    simp only [place_array kind, View.getOwn, Content.getOwn]
    cases key.role with
    | element index => exact Concludes.of_elements holds (held.getOwn index).concludes
    | length =>
      simp only [held.lengthSlot]
      exact Concludes.unchanged holds _
    | name => exact (Concludes.of_store holds kind held (slot_ok held.store key)).map _

/-- A definition of the length of an array is one for its elements. -/
theorem Holds.define_length {array : Elements.View} {elements : Elements}
    (holds : object.Holds chart view) (content : view.content = .array array)
    (sound : array.Sound) (kind : object.kind = .array elements) (desc : Descriptor) :
    ∃ doomed,
      (∀ length, Elements.lengthOf? desc.value = some length →
        elements.Visits array length array.length doomed) ∧
      Concludes (define .length desc) object chart (array.defineLength doomed desc).1
        { view with content := .array (array.defineLength doomed desc).2 } := by
  obtain ⟨inner, innerKind, held⟩ : (Content.array array).Holds object chart :=
    content ▸ holds.content
  cases kind.symm.trans innerKind
  obtain ⟨doomed, visits, concludes⟩ := held.defineLength sound desc
  refine ⟨doomed, visits, ?_⟩
  unfold Object.define
  refine Concludes.get ?_
  have role : Key.length.role = .length := rfl
  simp only [place_array kind, role]
  exact Concludes.of_elements holds concludes

theorem Holds.define (holds : object.Holds chart view) (sound : view.content.Sound) (key : Key)
    (desc : Descriptor) :
    ∃ bound doomed,
      (∀ length, key = Key.length → Elements.lengthOf? desc.value = some length →
        view.content.Doomed length doomed) ∧
      Concludes (define key desc) object chart (view.define bound doomed key desc).1
        (view.define bound doomed key desc).2 := by
  obtain ⟨content, extensible, prototype⟩ := view
  have held := holds.content
  have allowed := holds.extensible
  unfold Object.define
  cases content with
  | ordinary record =>
    refine ⟨0, [], fun _ _ _ => trivial, Concludes.get ?_⟩
    simp only [place_ordinary held.1, allowed]
    exact Concludes.of_ordinary holds held.1 (held.2.define_ok key desc extensible)
  | array array =>
    obtain ⟨elements, kind, held⟩ := held
    cases role : key.role with
    | element index =>
      have notLength : key ≠ Key.length := by
        rw [(Key.of_role_element role).1]
        exact Elements.View.index_ne_length index
      refine ⟨elements.maxVectorSize, [], fun _ same => absurd same notLength, Concludes.get ?_⟩
      simp only [place_array kind, role, View.define, Content.define, allowed]
      exact Concludes.of_elements holds (held.define index desc extensible).concludes
    | length =>
      obtain rfl := Key.of_role_length role
      obtain ⟨doomed, visits, concludes⟩ := holds.define_length rfl sound kind desc
      refine ⟨0, doomed, fun length _ found => (visits length found).toDoomed, ?_⟩
      unfold Object.define at concludes
      exact concludes
    | name =>
      refine ⟨0, [], fun _ same => absurd same (Key.of_role_name role).1, Concludes.get ?_⟩
      simp only [place_array kind, role, View.define, Content.define, allowed]
      exact Concludes.of_store holds kind held (held.store.define_ok key desc extensible)

theorem Holds.delete (holds : object.Holds chart view) (key : Key) :
    Concludes (delete key) object chart (.ok (view.delete key).1) (view.delete key).2 := by
  obtain ⟨content, extensible, prototype⟩ := view
  have held := holds.content
  unfold Object.delete
  refine Concludes.get ?_
  cases content with
  | ordinary record =>
    simp only [place_ordinary held.1]
    exact Concludes.of_ordinary holds held.1 (held.2.delete_ok key)
  | array array =>
    obtain ⟨elements, kind, held⟩ := held
    simp only [place_array kind, View.delete, Content.delete]
    cases key.role with
    | element index => exact Concludes.of_elements holds (held.delete index).concludes
    | length => exact Concludes.unchanged holds _
    | name => exact Concludes.of_store holds kind held (held.store.delete_ok key)

theorem keys_ok {record : Record} (held : object.store.Holds chart record) (filter : KeyFilter) :
    ∃ (kept : Store) (after : Chart),
      Store.keys filter ⟨object.store, chart.shapes⟩ = .ok (record.keys filter) ⟨kept, after.shapes⟩ ∧
      kept.Holds after record ∧ Chart.Moves chart after object.store.shape kept.shape := by
  obtain ⟨after, agrees, ran⟩ := held.keys_ok filter
  exact ⟨object.store, after, ran, held.extend agrees.extends, agrees.extends.moves held.live⟩

theorem Holds.keys (holds : object.Holds chart view) (filter : KeyFilter) :
    ∃ listed, view.content.Lists filter listed ∧
      Concludes (keys filter) object chart (.ok listed) view := by
  obtain ⟨content, extensible, prototype⟩ := view
  have held := holds.content
  unfold Object.keys
  cases content with
  | ordinary record =>
    obtain ⟨moved, after, ran, heldAfter, moves⟩ :=
      Concludes.of_ordinary holds held.1 (keys_ok held.2 filter)
    refine ⟨record.keys filter, rfl, moved, after, ?_, heldAfter, moves⟩
    have kind : moved.kind = .ordinary := heldAfter.content.1
    rw [Action.bind_ok ran, Action.bind_ok (Action.get_apply _)]
    simp only [elements?, kind]
    rfl
  | array array =>
    obtain ⟨elements, kind, held⟩ := held
    obtain ⟨moved, after, ran, heldAfter, moves⟩ :=
      Concludes.of_store holds kind held (keys_ok held.store filter)
    obtain ⟨inner, kindAfter, innerHeld⟩ := heldAfter.content
    refine ⟨_, ⟨Indices.ascending (inner.indices ++ (array.record.keys filter).filterMap Key.index?),
      Indices.ascending_pairwise _, fun index => ?_, rfl⟩, moved, after, ?_, heldAfter, moves⟩
    · rw [Indices.mem_ascending, List.mem_append, Elements.mem_indices innerHeld.sound,
        innerHeld.element, List.mem_filterMap]
      refine or_congr_right ⟨?_, fun member => ⟨.index index, member, rfl⟩⟩
      rintro ⟨key, member, same⟩
      cases key with
      | index n => exact Option.some.inj same ▸ member
      | named id => cases same
    · rw [Action.bind_ok ran, Action.bind_ok (Action.get_apply _)]
      simp only [elements?, kindAfter, innerHeld.lengthSlot]
      rfl

end Object

end HiddenClass
