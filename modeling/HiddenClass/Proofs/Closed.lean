import HiddenClass.Proofs.Evolution
import HiddenClass.Proofs.Realm.Stops

/-!
No use after free. In a run that names live objects and has no native function for an accessor, live
cells hold live cells only at every moment, and no request stops at a cell that is gone.
-/

namespace HiddenClass

variable {desc : Descriptor} {key : Key}

/-! ### Accessors without native functions -/

/-- Neither the getter nor the setter is a native function. -/
def Descriptor.isInert (desc : Descriptor) : Bool :=
  !desc.getter.isCallable && !desc.setter.isCallable

theorem Descriptor.isInert_iff :
    desc.isInert = true ↔ desc.getter.isCallable = false ∧ desc.setter.isCallable = false := by
  rw [isInert, Bool.and_eq_true, Bool.not_eq_true', Bool.not_eq_true']

def Request.isInert : Request → Bool
  | .define _ _ desc _ => desc.isInert
  | _ => true

namespace Slot

variable {slot : Slot}

def Inert (slot : Slot) : Prop := slot.getter.isCallable = false ∧ slot.setter.isCallable = false

theorem inert_ofDescriptor (inert : desc.isInert = true) : (ofDescriptor desc).Inert := by
  unfold ofDescriptor
  by_cases accessor : desc.isAccessor = true
  · rw [if_pos accessor]
    exact Descriptor.isInert_iff.mp inert
  · rw [if_neg accessor]
    exact ⟨rfl, rfl⟩

/-- A property gets its functions from a descriptor, if not from before. -/
theorem Inert.merge (before : slot.Inert) (inert : desc.isInert = true) : (slot.merge desc).Inert := by
  obtain ⟨getter, setter⟩ := before
  obtain ⟨given, givenSetter⟩ := Descriptor.isInert_iff.mp inert
  have undefined : Value.undefined.isCallable = false := rfl
  unfold Inert Slot.merge asData asAccessor
  constructor <;> grind

theorem Inert.toDescriptor (inert : slot.Inert) : slot.toDescriptor.isInert = true := by
  unfold Slot.toDescriptor
  by_cases accessor : slot.flags.accessor = true
  · rw [if_pos accessor]
    exact Descriptor.isInert_iff.mpr inert
  · rw [if_neg accessor]
    rfl

end Slot

namespace Object.Content

def Inert (content : Content) : Prop :=
  ∀ key slot, content.record.find? key = some slot → slot.Inert

variable {content after : Content}

theorem Sound.record (sound : content.Sound) : content.record.Sound := by
  cases content with
  | ordinary record => exact sound
  | array view => exact Elements.View.Sound.record sound

theorem Inert.evolve (inert : content.Inert) (sound : content.Sound)
    (evolves : content.Evolves (fun desc => desc.isInert = true) after) : after.Inert :=
  evolves.record.all sound.record (fun _ given => Slot.inert_ofDescriptor given)
    (fun _ _ given before => before.merge given) inert

theorem Inert.getOwn (inert : content.Inert) (own : content.getOwn key = some desc) :
    desc.isInert = true := by
  cases content with
  | ordinary record =>
    obtain ⟨slot, found, rfl⟩ := Option.map_eq_some_iff.mp own
    exact (inert key slot found).toDescriptor
  | array view =>
    rcases held_of_getOwn own with ⟨index, value, _, rfl⟩ | ⟨other, slot, found, rfl⟩ | rfl
    · rfl
    · exact (inert other slot found).toDescriptor
    · rfl

end Object.Content

namespace Pursuit

theorem ofAccessor_inert {accessor : Value} (inert : accessor.isCallable = false) (this : Value)
    (arguments : List Value) : ofAccessor accessor this arguments = .nothing := by
  cases accessor <;> first | rfl | cases inert

end Pursuit

namespace Realm

variable {realm : Realm} {chart : Chart} {views later : Views} {handle : Handle} {request : Request}
  {host : Host} {config : Config} {requests : List Request}

/-- The setter that an assignment calls is that of the property, own or inherited, with the key. -/
theorem Assignment.of_setter {own inherited : Option Descriptor} {extensible : Bool} {function : Value}
    (chosen : choose own inherited extensible = .setter function) :
    ∃ desc, (own = some desc ∨ own = none ∧ inherited = some desc) ∧ desc.setter = function := by
  have setter : ∀ desc : Descriptor, Assignment.ofSetter desc.setter = .setter function →
      desc.setter = function := by
    intro desc same
    unfold ofSetter at same
    split at same
    · cases same
    · exact Assignment.setter.inj same
  unfold choose at chosen
  cases own with
  | some desc =>
    simp only at chosen
    split at chosen
    · exact ⟨desc, Or.inl rfl, setter desc chosen⟩
    · split at chosen <;> cases chosen
  | none =>
    cases inherited with
    | none =>
      simp only at chosen
      split at chosen <;> cases chosen
    | some desc =>
      simp only at chosen
      split at chosen
      · exact ⟨desc, Or.inr ⟨rfl, rfl⟩, setter desc chosen⟩
      · split at chosen <;> cases chosen

theorem Views.decision_eq_setter {bound : Nat} {view : Object.View} {function : Value}
    (decided : views.decision key bound view = .ok (.setter function)) :
    ∃ desc, (view.getOwn key = some desc ∨ views.inherited key bound view = .ok (some desc)) ∧
      desc.setter = function := by
  obtain ⟨inherited, chosen, searched⟩ := Views.decision_eq_ok decided
  obtain ⟨desc, own | ⟨absent, found⟩, setter⟩ := Assignment.of_setter chosen.symm
  · exact ⟨desc, Or.inl own, setter⟩
  · exact ⟨desc, Or.inr (found ▸ searched absent), setter⟩

/-- No object has a native function in an accessor. -/
def Views.Inert (views : Views) : Prop :=
  ∀ handle view, views handle = some view → view.content.Inert

theorem Views.Inert.search (inert : views.Inert) {bound : Nat}
    (found : views.search key bound handle = .ok (some desc)) : desc.isInert = true := by
  induction bound generalizing handle with
  | zero => cases found
  | succ bound ih =>
    unfold Views.search at found
    cases shown : views handle with
    | none =>
      rw [shown] at found
      cases found
    | some view =>
      rw [shown] at found
      simp only at found
      cases own : view.getOwn key with
      | some held =>
        rw [own] at found
        cases found
        exact (inert handle view shown).getOwn own
      | none =>
        rw [own] at found
        simp only at found
        split at found
        · exact ih found
        · cases found

theorem Views.Inert.inherited (inert : views.Inert) {bound : Nat} {view : Object.View}
    (found : views.inherited key bound view = .ok (some desc)) : desc.isInert = true := by
  unfold Views.inherited at found
  split at found
  · exact inert.search found
  · cases found

theorem Views.Inert.evolve (inert : views.Inert) (valid : views.Valid)
    (evolves : views.Evolves (fun desc => desc.isInert = true) later) : later.Inert := by
  intro handle after shown
  rcases evolves handle after shown with ⟨_, empty⟩ | ⟨before, shownBefore, became⟩
  · intro key slot found
    rw [empty] at found
    cases found
  · exact (inert handle before shownBefore).evolve (valid.sound handle before shownBefore) became

/-- Where no accessor has a native function, none is called. -/
theorem Holds.silent (holds : realm.Holds chart views) (valid : views.Valid) (inert : views.Inert)
    (named : request.namesLive realm = true) : request.callsNative realm = false := by
  unfold Request.callsNative
  cases request with
  | read object key =>
    have live := Request.live_of_namesLive named (fun _ => Request.noConfusion) object
      (List.mem_singleton_self object)
    obtain ⟨looked, _, ran, _⟩ := holds.getProperty_settled valid (holds.live_iff.mpr live) key
    rw [Request.pursue, Request.lookUp, ran]
    cases found : views.search key (realm.objects.capacity + 1) object with
    | error fault => rfl
    | ok sought =>
      cases sought with
      | none => rfl
      | some desc =>
        have getter := (Descriptor.isInert_iff.mp (inert.search found)).1
        simp only [Action.settled]
        rw [Pursuit.ofRead, Pursuit.ofAccessor_inert getter, ite_self]
  | put object key value raises =>
    have live := Request.live_of_namesLive named (fun _ => Request.noConfusion) object
      (List.mem_cons_self ..)
    obtain ⟨view, shown⟩ := holds.live_iff.mpr live
    obtain ⟨bound, looked, _, ran, _⟩ := holds.assignment_settled shown (Or.inr valid) key
    rw [Request.pursue, Request.lookUp, ran]
    cases decided : views.decision key bound view with
    | error fault => rfl
    | ok decision =>
      simp only [Action.settled]
      cases decision with
      | setter function =>
        obtain ⟨desc, own | inherited, rfl⟩ := Views.decision_eq_setter decided
        · have setter := (Descriptor.isInert_iff.mp ((inert object view shown).getOwn own)).2
          rw [Pursuit.ofAssignment, Pursuit.ofAccessor_inert setter]
        · have setter := (Descriptor.isInert_iff.mp (inert.inherited inherited)).2
          rw [Pursuit.ofAssignment, Pursuit.ofAccessor_inert setter]
      | _ => rfl
  | _ => rfl

/-- A request that is one turn does not stop at a cell that is gone. -/
theorem Holds.reply_ne_stale (holds : realm.Holds chart views) (valid : views.Valid)
    (lawful : (Turn.make request).isLawful realm = true) (handle : Handle) :
    (request.outcome host realm).1 ≠ .stopped (.stale handle) := by
  intro stopped
  rcases holds.stopped valid lawful stopped with ordinary | ⟨overflow, _⟩
  · cases ordinary
  · cases overflow

/-! ### Closed heaps -/

/-- Whatever a live cell holds is live: the shape of an object, its prototype and the objects in its
slots and elements, and the shapes that a shape leads to and comes from. -/
structure Closed (realm : Realm) : Prop where
  shape : ∀ handle object, realm.objects.get? handle = some object →
    realm.shapes.arena.contains object.store.shape = true
  prototype : ∀ handle object, realm.objects.get? handle = some object →
    ∀ prototype, object.prototype = some prototype → realm.objects.contains prototype = true
  slot : ∀ handle object, realm.objects.get? handle = some object → ∀ slot ∈ object.store.slots,
    ∀ target ∈ slot.value.handles ++ slot.getter.handles ++ slot.setter.handles,
      realm.objects.contains target = true
  vector : ∀ handle object elements, realm.objects.get? handle = some object →
    object.kind = .array elements → ∀ value ∈ elements.vector, ∀ target ∈ value.handles,
      realm.objects.contains target = true
  map : ∀ handle object elements, realm.objects.get? handle = some object →
    object.kind = .array elements → ∀ entry ∈ elements.map, ∀ target ∈ entry.2.handles,
      realm.objects.contains target = true
  child : ∀ handle shape children, realm.shapes.arena.get? handle = some shape →
    shape.sharing = .shared children → ∀ entry ∈ children.entries,
      realm.shapes.arena.contains entry.2 = true
  previous : ∀ handle shape previous, realm.shapes.arena.get? handle = some shape →
    shape.previous = some previous → realm.shapes.arena.contains previous = true
  objectRoot : realm.shapes.arena.contains realm.objectRoot = true
  arrayRoot : realm.shapes.arena.contains realm.arrayRoot = true

/-- What the collector sees of an object is all that it holds. -/
theorem mem_edges_of_held {object : Object} {value : Value}
    (held : (∃ slot ∈ object.store.slots, value = slot.value ∨ value = slot.getter ∨
        value = slot.setter) ∨
      ∃ elements, object.kind = .array elements ∧
        (value ∈ elements.vector ∨ ∃ entry ∈ elements.map, value = entry.2))
    {cell : Cell} (edge : cell ∈ value.edges) : cell ∈ object.edges := by
  unfold Object.edges
  simp only [List.cons_append, List.mem_cons, List.mem_append]
  rcases held with ⟨slot, member, part⟩ | ⟨elements, kind, part⟩
  · refine Or.inr (Or.inl (Or.inl (List.mem_flatMap.mpr
      ⟨slot, Array.mem_toList_iff.mpr member, ?_⟩)))
    unfold Slot.edges
    simp only [List.mem_append]
    rcases part with rfl | rfl | rfl
    · exact Or.inl (Or.inl edge)
    · exact Or.inl (Or.inr edge)
    · exact Or.inr edge
  · refine Or.inr (Or.inl (Or.inr ?_))
    rw [kind]
    unfold Elements.edges
    simp only [List.mem_append, List.mem_flatMap]
    rcases part with member | ⟨entry, member, rfl⟩
    · exact Or.inl ⟨value, Array.mem_toList_iff.mpr member, edge⟩
    · exact Or.inr ⟨entry, member, edge⟩

theorem Holds.closed (holds : realm.Holds chart views) (valid : views.Valid) : realm.Closed := by
  have tight := holds.tight valid
  have object : ∀ {handle object cell}, realm.objects.get? handle = some object →
      cell ∈ object.edges → realm.Alive cell := by
    intro handle object cell found member
    apply tight (.object handle)
    rw [edges, found]
    exact member
  have shape : ∀ {handle shape cell}, realm.shapes.arena.get? handle = some shape →
      cell ∈ shape.edges → realm.Alive cell := by
    intro handle shape cell found member
    apply tight (.shape handle)
    rw [edges, found]
    exact member
  have edge : ∀ {value : Value} {target : Handle}, target ∈ value.handles →
      Cell.object target ∈ value.edges :=
    fun member => Value.mem_edges.mpr ⟨_, member, rfl⟩
  exact {
    shape := fun handle holder found => by
      have member : Cell.shape holder.store.shape ∈ holder.edges := by simp [Object.edges]
      exact object found member
    prototype := fun handle holder found prototype linked => by
      have member : Cell.object prototype ∈ holder.edges := by simp [Object.edges, linked]
      exact object found member
    slot := fun handle holder found slot member target inside => by
      have stored : ∀ value, (value = slot.value ∨ value = slot.getter ∨ value = slot.setter) →
          target ∈ value.handles → realm.objects.contains target = true :=
        fun value part named =>
          object found (mem_edges_of_held (Or.inl ⟨slot, member, part⟩) (edge named))
      rcases List.mem_append.mp inside with given | setter
      · rcases List.mem_append.mp given with value | getter
        · exact stored slot.value (Or.inl rfl) value
        · exact stored slot.getter (Or.inr (Or.inl rfl)) getter
      · exact stored slot.setter (Or.inr (Or.inr rfl)) setter
    vector := fun handle holder elements found kind value member target inside =>
      object found (mem_edges_of_held (Or.inr ⟨elements, kind, Or.inl member⟩) (edge inside))
    map := fun handle holder elements found kind entry member target inside =>
      object found (mem_edges_of_held (Or.inr ⟨elements, kind, Or.inr ⟨entry, member, rfl⟩⟩)
        (edge inside))
    child := fun handle cell children found sharing entry member =>
      shape found (Shape.mem_edges_of_child sharing member)
    previous := fun handle cell previous found linked =>
      shape found (Shape.mem_edges_of_previous linked)
    objectRoot := holds.alive_shape.mpr holds.objectRoot.1.live
    arrayRoot := holds.alive_shape.mpr holds.arrayRoot.1.live }

/-! ### Runs -/

/-- Whether every request names live objects only, at the moment it is made. -/
def namesLive (host : Host) : Realm → List Request → Bool
  | _, [] => true
  | realm, request :: rest =>
    request.namesLive realm && namesLive host (request.outcome host realm).2 rest

/-- A state of a run that never put a native function into an accessor. -/
def Quiet (realm : Realm) : Prop :=
  ∃ (chart : Chart) (views : Views), realm.Holds chart views ∧ views.Valid ∧ views.Inert

theorem quiet_ofConfig (config : Config) : (ofConfig config).Quiet := by
  obtain ⟨chart, holds⟩ := holds_ofConfig config
  exact ⟨chart, _, holds, valid_empty, fun handle view shown => by cases shown⟩

theorem Quiet.closed (quiet : realm.Quiet) : realm.Closed := by
  obtain ⟨chart, views, holds, valid, _⟩ := quiet
  exact holds.closed valid

/-- One request leads to such a state again, and finds all cells that it needs. -/
theorem Quiet.make (quiet : realm.Quiet) (host : Host) (named : request.namesLive realm = true)
    (inert : request.isInert = true) :
    (request.outcome host realm).2.Quiet ∧
      ∀ handle, (request.outcome host realm).1 ≠ .stopped (.stale handle) := by
  obtain ⟨chart, views, holds, valid, silent⟩ := quiet
  have lawful : (Turn.make request).isLawful realm = true := by
    rw [Turn.isLawful, named, holds.silent valid silent named]
    rfl
  have given : request.Gives fun desc => desc.isInert = true := by
    intro object key desc raises same
    rw [same] at inert
    exact inert
  obtain ⟨after, later, held, validLater, evolves⟩ :=
    holds.evolve valid host lawful (fun _ => rfl) (fun _ => rfl) given
  exact ⟨⟨after, later, held, validLater, silent.evolve valid evolves⟩,
    holds.reply_ne_stale valid lawful⟩

theorem Quiet.run (quiet : realm.Quiet) (named : realm.namesLive host requests = true)
    (inert : ∀ request ∈ requests, request.isInert = true) :
    (∀ front, front <+: requests → (realm.after host front).Quiet) ∧
      ∀ handle, Reply.stopped (.stale handle) ∉ realm.replies host requests := by
  induction requests generalizing realm with
  | nil =>
    constructor
    · intro front before
      rw [List.prefix_nil.mp before]
      exact quiet
    · exact fun handle => List.not_mem_nil
  | cons request rest ih =>
    obtain ⟨first, others⟩ := Bool.and_eq_true_iff.mp named
    obtain ⟨made, answered⟩ := quiet.make host first (inert request (List.mem_cons_self ..))
    obtain ⟨states, replies⟩ :=
      ih made others fun other member => inert other (List.mem_cons_of_mem _ member)
    constructor
    · intro front before
      rcases List.prefix_cons_iff.mp before with rfl | ⟨front, rfl, shorter⟩
      · exact quiet
      · exact states front shorter
    · intro handle member
      rcases List.mem_cons.mp member with now | later
      · exact answered handle now.symm
      · exact replies handle later

/-- In a run that names live objects and has no native function for an accessor, the heap is closed
at every moment, so no request stops at a cell that is gone. -/
theorem run_closed (named : (ofConfig config).namesLive host requests = true)
    (inert : ∀ request ∈ requests, request.isInert = true) :
    (∀ front, front <+: requests → ((ofConfig config).after host front).Closed) ∧
      ∀ handle, Reply.stopped (.stale handle) ∉ (ofConfig config).replies host requests := by
  obtain ⟨states, replies⟩ := (quiet_ofConfig config).run named inert
  exact ⟨fun front before => (states front before).closed, replies⟩

/-- Shapes are shared, left, forked and made unique, and elements move to a store. The last of three
collections frees objects and shapes, and the object made next takes the place of one of them. -/
def recycling : List Request :=
  let first : Handle := ⟨0, 0⟩
  let second : Handle := ⟨1, 0⟩
  let array : Handle := ⟨2, 0⟩
  let third : Handle := ⟨3, 0⟩
  let name := Key.named 1
  [.intern "name", .newObject none, .newObject (some first), .newArray 2,
    .put first name (.int 1) true, .put second name (.object array) true,
    .put first (.index 7) (.object second) true, .delete first name true, .collect [first, third],
    .put array (.index 0) (.object second) true,
    .define array (.index 1) (.accessor (some .undefined) (some (.object first)) {}) true,
    .newUniqueObject (some array), .put third name (.object first) true, .makeUnique second,
    .makeTransitionable third, .put third (.index 0) (.object second) true, .collect [third],
    .delete third (.index 0) true, .setPrototype third none, .put third name .null true,
    .preventExtensions third, .collect [third], .newObject (some third),
    .put ⟨2, 1⟩ name (.object third) true, .read ⟨2, 1⟩ (.index 0), .keys third .all,
    .getProperty ⟨2, 1⟩ name]

theorem run_closed_recycling :
    (ofConfig {}).namesLive Host.none recycling = true ∧
      (∀ request ∈ recycling, request.isInert = true) ∧
      (∀ front, front <+: recycling → ((ofConfig {}).after Host.none front).Closed) ∧
      ∀ handle, Reply.stopped (.stale handle) ∉ (ofConfig {}).replies Host.none recycling :=
  have named : (ofConfig {}).namesLive Host.none recycling = true := by decide +kernel
  have inert : ∀ request ∈ recycling, request.isInert = true := by decide +kernel
  ⟨named, inert, run_closed named inert⟩

end Realm

end HiddenClass
