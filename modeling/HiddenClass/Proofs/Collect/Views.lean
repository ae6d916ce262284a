import HiddenClass.Proofs.Collect.Edges

/-!
A realm that shows valid views holds live cells only, and a collection takes objects out of its
views without changing the others.
-/

namespace HiddenClass

variable {P Q : Value → Prop}

/-- What is held satisfies another predicate if it does so wherever the object keeps it alive. -/
theorem Object.Content.Holds.proper {object : Object} {chart : Chart} {content : Object.Content}
    (holds : content.Holds object chart) (sound : content.Sound) (proper : content.Proper P)
    (each : ∀ value, P value → (∀ cell ∈ value.edges, cell ∈ object.edges) → Q value) :
    content.Proper Q := by
  have slots : ∀ slot : Slot, slot.Proper P → (∀ cell ∈ slot.edges, cell ∈ object.edges) →
      slot.Proper Q := by
    intro slot old inside
    unfold Slot.edges at inside
    simp only [List.mem_append] at inside
    refine ⟨each _ old.value fun cell member => ?_, each _ old.getter fun cell member => ?_,
      each _ old.setter fun cell member => ?_, old.type, old.data, old.accessor⟩
    · exact inside cell (Or.inl (Or.inl member))
    · exact inside cell (Or.inl (Or.inr member))
    · exact inside cell (Or.inr member)
  have stored : ∀ cell, cell ∈ object.store.slots.toList.flatMap Slot.edges → cell ∈ object.edges := by
    intro cell member
    unfold Object.edges
    exact List.mem_append_left _ (List.mem_append_left _ (List.mem_cons_of_mem _ member))
  cases content with
  | ordinary record =>
    intro key slot found
    refine slots slot (proper key slot found) fun cell member => stored cell ?_
    exact (holds.2.mem_edges sound).mpr ⟨key, slot, found, member⟩
  | array view =>
    obtain ⟨elements, kind, held⟩ := holds
    refine ⟨fun index value present => each value (proper.element index value present) ?_, ?_⟩
    · intro cell member
      have inside : cell ∈ elements.edges := (Elements.mem_edges held.sound).mpr
        ⟨index, value, (held.element index).trans present, member⟩
      unfold Object.edges
      rw [kind]
      exact List.mem_append_left _ (List.mem_append_right _ inside)
    · intro key slot found
      refine slots slot (proper.record key slot found) fun cell member => stored cell ?_
      exact (held.store.mem_edges sound.record).mpr ⟨key, slot, found, member⟩

/-- A descriptor that is answered carries what is held. -/
theorem Object.Content.Proper.getOwn {content : Object.Content} (undefined : P .undefined)
    (word : ∀ n, P (.ofWord n)) (proper : content.Proper P) {key : Key} {desc : Descriptor}
    (shown : content.getOwn key = some desc) : desc.All P := by
  have stored : ∀ slot : Slot, slot.Proper P → slot.toDescriptor.All P := by
    intro slot held
    unfold Slot.toDescriptor
    split
    · exact ⟨undefined, held.getter, held.setter⟩
    · exact ⟨held.value, undefined, undefined⟩
  cases content with
  | ordinary record =>
    obtain ⟨slot, found, rfl⟩ := Option.map_eq_some_iff.mp shown
    exact stored slot (proper key slot found)
  | array view =>
    rcases held_of_getOwn shown with ⟨index, value, present, rfl⟩ | ⟨other, slot, found, rfl⟩ | rfl
    · exact ⟨proper.element index value present, undefined, undefined⟩
    · exact stored slot (proper.record other slot found)
    · exact ⟨word _, undefined, undefined⟩

namespace Realm

variable {realm : Realm} {chart : Chart} {views : Views} {handle target : Handle} {cell : Cell}
  {roots : List Handle} {view : Object.View}

theorem Views.admits_word (views : Views) (n : Nat) : views.Admits (.ofWord n) := by
  intro handle member
  unfold Value.ofWord at member
  split at member <;> cases member

/-- What an object shows is live. -/
theorem Views.Valid.shows (valid : views.Valid) (shown : views handle = some view)
    (held : view.Shows target) : views.Live target := by
  rcases held with linked | ⟨key, desc, own, member⟩
  · exact valid.prototype handle view shown target linked
  · have admitted := (valid.content handle view shown).getOwn views.admits_undefined
      views.admits_word own
    unfold Descriptor.handles at member
    simp only [List.mem_append] at member
    rcases member with (value | getter) | setter
    · exact admitted.value target value
    · exact admitted.getter target getter
    · exact admitted.setter target setter

namespace Holds

variable (holds : realm.Holds chart views)
include holds

theorem alive_shape : realm.Alive (.shape handle) ↔ chart.Live handle := by
  rw [Alive, holds.shapes]
  exact Iff.rfl

theorem alive_object : realm.Alive (.object handle) ↔ views.Live handle := holds.live_iff.symm

theorem rootCells_alive (live : ∀ root ∈ roots, views.Live root) :
    ∀ root ∈ realm.rootCells roots, realm.Alive root := by
  intro root member
  rcases List.mem_append.mp member with listed | own
  · obtain ⟨handle, present, rfl⟩ := List.mem_map.mp listed
    exact holds.alive_object.mpr (live handle present)
  · rcases List.mem_cons.mp own with rfl | last
    · exact holds.alive_shape.mpr holds.objectRoot.1.live
    · rw [List.mem_singleton.mp last]
      exact holds.alive_shape.mpr holds.arrayRoot.1.live

/-- The edges of a live object, as its view has them. -/
theorem mem_object_edges (valid : views.Valid) {object : Object}
    (found : realm.objects.get? handle = some object) (shown : views handle = some view) :
    cell ∈ object.edges ↔
      cell = .shape object.store.shape ∨ ∃ target, view.Shows target ∧ cell = .object target := by
  obtain ⟨same, shownHere, held⟩ := holds.view handle object found
  rw [shown] at shownHere
  cases shownHere
  exact held.mem_edges (valid.sound handle view shown) (valid.content handle view shown)

/-- Live cells hold live cells only. -/
theorem tight (valid : views.Valid) : realm.Tight := by
  intro source next member
  cases source with
  | object handle =>
    obtain ⟨object, found⟩ := Arena.contains_iff.mp (alive_of_edge member)
    obtain ⟨view, shown, held⟩ := holds.view handle object found
    rw [edges, found] at member
    rcases (holds.mem_object_edges valid found shown).mp member with rfl | ⟨target, shows, rfl⟩
    · exact holds.alive_shape.mpr held.live
    · exact holds.alive_object.mpr (valid.shows shown shows)
  | shape handle =>
    obtain ⟨shape, found⟩ := Arena.contains_iff.mp (alive_of_edge member)
    rw [edges, found] at member
    rw [holds.shapes] at found
    have charted : chart.get? handle = some shape := found
    have placed := Chart.placed charted
    rcases List.mem_append.mp member with child | parent
    · cases sharing : shape.sharing with
      | unique =>
        rw [sharing] at child
        cases child
      | shared children =>
        rw [sharing] at child
        obtain ⟨entry, listed, rfl⟩ := List.mem_map.mp child
        obtain ⟨follower, present, _⟩ := placed.children children sharing entry listed
        exact holds.alive_shape.mpr (Chart.live_of_get? present)
    · obtain ⟨previous, linked, rfl⟩ := List.mem_map.mp parent
      obtain ⟨_, _, present, _⟩ := placed.previous previous (Option.mem_toList.mp linked)
      exact holds.alive_shape.mpr (Chart.live_of_get? present)

theorem shared_swept {after : Chart} (shapes : after.shapes = (realm.swept roots).shapes)
    (survives : (realm.swept roots).Alive (.shape handle)) (shared : chart.Shared handle) :
    after.Shared handle := by
  obtain ⟨shape, present, sharing⟩ := shared
  refine ⟨shape, ?_, sharing⟩
  rw [Chart.get?, shapes, shape_swept survives, holds.shapes]
  exact present

end Holds

/-! ### Collecting -/

/-- The views of the objects that are kept. -/
def Views.restrict (views : Views) (keep : Handle → Bool) : Views :=
  fun handle => if keep handle then views handle else none

theorem Views.restrict_some {keep : Handle → Bool} :
    views.restrict keep handle = some view ↔ keep handle = true ∧ views handle = some view := by
  unfold restrict
  by_cases kept : keep handle = true
  · rw [if_pos kept, and_iff_right kept]
  · rw [if_neg kept]
    exact ⟨fun none => (Option.some_ne_none _ none.symm).elim, fun both => absurd both.1 kept⟩

namespace Holds

variable (holds : realm.Holds chart views) (valid : views.Valid)
  (clear : realm.Clear (realm.rootCells roots))
include holds valid clear

theorem survives_edge (survives : (realm.swept roots).Alive cell) {next : Cell}
    (member : next ∈ realm.edges cell) : (realm.swept roots).Alive next := by
  rw [← edges_swept survives] at member
  exact tight_swept (holds.tight valid) clear cell next member

theorem survives_root {root : Cell} (member : root ∈ realm.rootCells roots)
    (alive : realm.Alive root) : (realm.swept roots).Alive root :=
  (alive_swept_iff_reached (holds.tight valid) clear).mpr (.root member alive)

/-- The shapes that are left stand for the same layouts. -/
theorem charted_swept : (realm.swept roots).shapes.Charted chart.layouts := by
  have chartedRealm : realm.shapes.Charted chart.layouts := holds.shapes ▸ chart.charted
  refine ⟨Arena.sound_retain _ chartedRealm.sound, fun handle shape found => ?_⟩
  have survives : (realm.swept roots).Alive (.shape handle) := Arena.contains_of_get? found
  rw [shape_swept survives] at found
  have placed := chartedRealm.placed handle shape found
  have near : ∀ next ∈ shape.edges, (realm.swept roots).Alive next := by
    intro next member
    refine holds.survives_edge valid clear survives ?_
    rw [edges, found]
    exact member
  refine ⟨placed.issued, placed.fits, placed.root, fun previous linked => ?_,
    fun children sharing entry member => ?_⟩
  · obtain ⟨parent, key, present, shared, earlier, extension⟩ := placed.previous previous linked
    have kept := near (.shape previous) (Shape.mem_edges_of_previous linked)
    exact ⟨parent, key, (shape_swept kept).trans present, shared, earlier, extension⟩
  · obtain ⟨follower, present, shared, extension⟩ := placed.children children sharing entry member
    have kept := near (.shape entry.2) (Shape.mem_edges_of_child sharing member)
    exact ⟨follower, (shape_swept kept).trans present, shared, extension⟩

/-- What is left after a collection shows the views of the surviving objects. -/
theorem collect : ∃ after : Chart, after.layouts = chart.layouts ∧
    (realm.swept roots).Holds after (views.restrict (realm.swept roots).objects.contains) := by
  let after : Chart := ⟨(realm.swept roots).shapes, chart.layouts, holds.charted_swept valid clear⟩
  have object : ∀ {handle object}, (realm.swept roots).objects.get? handle = some object →
      realm.objects.get? handle = some object ∧
        (realm.swept roots).Alive (.shape object.store.shape) := by
    intro handle object found
    have survives : (realm.swept roots).Alive (.object handle) := Arena.contains_of_get? found
    rw [object_swept survives] at found
    refine ⟨found, holds.survives_edge valid clear survives ?_⟩
    rw [edges, found]
    exact List.mem_append_left _ (List.mem_append_left _ (List.mem_cons_self ..))
  have objectRoot := holds.survives_root valid clear
    (List.mem_append_right _ (List.mem_cons_self ..))
    (holds.alive_shape.mpr holds.objectRoot.1.live)
  have arrayRoot := holds.survives_root valid clear
    (List.mem_append_right _ (List.mem_cons_of_mem _ (List.mem_singleton_self _)))
    (holds.alive_shape.mpr holds.arrayRoot.1.live)
  refine ⟨after, rfl, ?_⟩
  exact {
    shapes := rfl
    sound := Arena.sound_retain _ holds.sound
    view := fun handle cell found => by
      obtain ⟨before, shape⟩ := object found
      obtain ⟨view, shown, held⟩ := holds.view handle cell before
      exact ⟨view, Views.restrict_some.mpr ⟨Arena.contains_of_get? found, shown⟩,
        held.keep ⟨shape, rfl⟩⟩
    gone := fun handle absent => by
      rw [Views.restrict, if_neg (Arena.get?_eq_none_iff.mp absent)]
    apart := fun first second cell other found foundOther same => by
      obtain ⟨before, shape⟩ := object found
      refine (holds.apart first second cell other before (object foundOther).1 same).imp_right ?_
      exact holds.shared_swept rfl shape
    objectRoot := ⟨holds.shared_swept rfl objectRoot holds.objectRoot.1,
      holds.objectRoot.2⟩
    arrayRoot := ⟨holds.shared_swept rfl arrayRoot holds.arrayRoot.1,
      holds.arrayRoot.2⟩ }

/-- The surviving objects name surviving objects only. -/
theorem valid_swept : (views.restrict (realm.swept roots).objects.contains).Valid := by
  have near : ∀ {handle object view}, (realm.swept roots).objects.contains handle = true →
      realm.objects.get? handle = some object → views handle = some view →
      ∀ target, .object target ∈ object.edges →
        (views.restrict (realm.swept roots).objects.contains).Live target := by
    intro handle object view survives found shown target member
    have here : (realm.swept roots).Alive (.object handle) := survives
    have kept : (realm.swept roots).Alive (.object target) := by
      refine holds.survives_edge valid clear here ?_
      rw [edges, found]
      exact member
    obtain ⟨other, present⟩ := holds.alive_object.mp (alive_of_swept kept)
    exact ⟨other, Views.restrict_some.mpr ⟨kept, present⟩⟩
  refine ⟨fun handle view shown => ?_, fun handle view shown => ?_, fun handle view shown => ?_⟩
  · exact valid.sound handle view (Views.restrict_some.mp shown).2
  · obtain ⟨survives, before⟩ := Views.restrict_some.mp shown
    obtain ⟨object, found, held⟩ := holds.find before
    refine held.content.proper (valid.sound handle view before) (valid.content handle view before)
      fun value _ inside target member => ?_
    exact near survives found before target
      (inside _ (Value.mem_edges.mpr ⟨target, member, rfl⟩))
  · obtain ⟨survives, before⟩ := Views.restrict_some.mp shown
    obtain ⟨object, found, held⟩ := holds.find before
    intro prototype linked
    refine near survives found before prototype ?_
    exact (holds.mem_object_edges valid found before).mpr (Or.inr ⟨prototype, Or.inl linked, rfl⟩)

theorem step_collect (host : Host) :
    ∃ (after : Chart) (later : Views),
      views.Step (.collect roots) ((Request.collect roots).outcome host realm).1 later ∧
      ((Request.collect roots).outcome host realm).2.Holds after later ∧ later.Valid := by
  obtain ⟨after, _, held⟩ := holds.collect valid clear
  have later := holds.valid_swept valid clear
  refine ⟨after, _, ⟨⟨_, rfl⟩, fun handle view shown => ?_, later⟩, held, later⟩
  exact (Views.restrict_some.mp shown).2

end Holds

variable {request : Request}

/-- Every request that calls no native function does what is seen of it. -/
theorem Holds.step (holds : realm.Holds chart views) (host : Host) (valid : views.Valid)
    (live : ∀ handle ∈ request.handles, views.Live handle) (direct : request.isDirect = true) :
    ∃ (after : Chart) (later : Views), views.Step request (request.outcome host realm).1 later ∧
      (request.outcome host realm).2.Holds after later ∧ later.Valid := by
  by_cases collecting : ∃ roots, request = .collect roots
  · obtain ⟨roots, rfl⟩ := collecting
    exact holds.step_collect valid (clear_of_live (holds.rootCells_alive live)) host
  · obtain ⟨after, later, step, held⟩ := holds.simulate host valid live direct
      fun roots same => collecting ⟨roots, same⟩
    exact ⟨after, later, step, held, valid.step live step⟩

end Realm

end HiddenClass
