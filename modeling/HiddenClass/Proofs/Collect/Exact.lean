import HiddenClass.Proofs.Realm.Run

/-!
Collections are exact. After a run that passed live handles only, a collection from live roots keeps
what the roots lead to and nothing else: what a property held before it was deleted, overwritten or
turned into one of the other type is not kept for its sake.
-/

namespace HiddenClass.Realm

/-- The objects that roots lead to, through prototypes and through own properties as they are
answered. -/
inductive Leads (realm : Realm) (roots : List Handle) : Handle → Prop where
  | root {root : Handle} (member : root ∈ roots) : Leads realm roots root
  | prototype {holder target : Handle} {object : Object} (led : Leads realm roots holder)
      (found : realm.objects.get? holder = some object) (linked : object.prototype = some target) :
      Leads realm roots target
  | property {holder target : Handle} {key : Key} {desc : Descriptor} {later : Realm}
      (led : Leads realm roots holder) (answered : getOwn holder key realm = .ok (some desc) later)
      (member : target ∈ desc.handles) : Leads realm roots target

/-- The shapes that the two root shapes and the shapes of kept objects lead to. -/
inductive LeadsToShape (realm : Realm) (kept : Handle → Prop) : Handle → Prop where
  | objectRoot : LeadsToShape realm kept realm.objectRoot
  | arrayRoot : LeadsToShape realm kept realm.arrayRoot
  | current {holder : Handle} {object : Object} (live : kept holder)
      (found : realm.objects.get? holder = some object) : LeadsToShape realm kept object.store.shape
  | child {parent : Handle} {shape : Shape} {children : Transitions} {entry : Key × Handle}
      (led : LeadsToShape realm kept parent) (found : realm.shapes.arena.get? parent = some shape)
      (sharing : shape.sharing = .shared children) (member : entry ∈ children.entries) :
      LeadsToShape realm kept entry.2
  | previous {child previous : Handle} {shape : Shape} (led : LeadsToShape realm kept child)
      (found : realm.shapes.arena.get? child = some shape) (linked : shape.previous = some previous) :
      LeadsToShape realm kept previous

/-- What an exact collection does to a realm. -/
structure Collected (before : Realm) (roots : List Handle) (census : Census) (after : Realm) :
    Prop where
  objects : ∀ handle, after.objects.contains handle = true ↔ before.Leads roots handle
  shapes : ∀ handle, after.shapes.arena.contains handle = true ↔
    before.LeadsToShape (before.Leads roots) handle
  object : ∀ handle, after.objects.contains handle = true →
    after.objects.get? handle = before.objects.get? handle
  shape : ∀ handle, after.shapes.arena.contains handle = true →
    after.shapes.arena.get? handle = before.shapes.arena.get? handle
  /-- Own properties are answered as before. -/
  own : ∀ handle key, after.objects.contains handle = true → ∃ answer later laterBefore,
    getOwn handle key after = .ok answer later ∧ getOwn handle key before = .ok answer laterBefore
  /-- Keys are listed as before. -/
  keys : ∀ handle filter, after.objects.contains handle = true → ∃ listed later laterBefore,
    keys handle filter after = .ok listed later ∧ keys handle filter before = .ok listed laterBefore
  /-- Shapes have the names and offsets that they had. -/
  names : ∀ handle, after.shapes.arena.contains handle = true → ∃ names later laterBefore,
    Shapes.names handle after.shapes = .ok names later ∧
      Shapes.names handle before.shapes = .ok names laterBefore
  /-- Nothing else is changed. -/
  rest : after = { before with
    objects := after.objects
    shapes := { before.shapes with arena := after.shapes.arena } }
  /-- What survives holds what survives. -/
  tight : after.Tight
  liveObjects : census.liveObjects = {handle | after.objects.contains handle = true}.ncard
  freedObjects : census.freedObjects = {handle | before.objects.contains handle = true ∧
    ¬after.objects.contains handle = true}.ncard
  liveShapes : census.liveShapes = {handle | after.shapes.arena.contains handle = true}.ncard
  freedShapes : census.freedShapes = {handle | before.shapes.arena.contains handle = true ∧
    ¬after.shapes.arena.contains handle = true}.ncard
  /-- A second collection frees nothing and changes nothing. -/
  again : collect roots after = .ok { census with freedObjects := 0, freedShapes := 0 } after

variable {realm : Realm} {chart : Chart} {views : Views} {roots : List Handle} {handle : Handle}
  {cell : Cell}

/-- What is led to, be it an object or a shape. -/
def Led (realm : Realm) (roots : List Handle) : Cell → Prop
  | .object handle => realm.Leads roots handle
  | .shape handle => realm.LeadsToShape (realm.Leads roots) handle

namespace Holds

variable (holds : realm.Holds chart views) (valid : views.Valid)
include holds valid

theorem led_of_reached (reached : Reached realm (realm.rootCells roots) cell) :
    realm.Led roots cell := by
  induction reached with
  | root member alive =>
    rcases List.mem_append.mp member with listed | own
    · obtain ⟨handle, present, rfl⟩ := List.mem_map.mp listed
      exact Leads.root present
    · rcases List.mem_cons.mp own with rfl | last
      · exact LeadsToShape.objectRoot
      · rw [List.mem_singleton.mp last]
        exact LeadsToShape.arrayRoot
  | @edge source next reached member ih =>
    cases source with
    | object holder =>
      obtain ⟨object, found⟩ := Arena.contains_iff.mp (alive_of_edge member)
      obtain ⟨view, shown, held⟩ := holds.view holder object found
      rw [edges, found] at member
      rcases (holds.mem_object_edges valid found shown).mp member with rfl | ⟨target, shows, rfl⟩
      · exact LeadsToShape.current ih found
      · rcases shows with linked | ⟨key, desc, own, inside⟩
        · exact Leads.prototype ih found (held.prototype.trans linked)
        · obtain ⟨later, _, ran, _⟩ := holds.getOwn_ok shown key
          rw [own] at ran
          exact Leads.property ih ran inside
    | shape holder =>
      obtain ⟨shape, found⟩ := Arena.contains_iff.mp (alive_of_edge member)
      rw [edges, found] at member
      rcases List.mem_append.mp member with child | parent
      · cases sharing : shape.sharing with
        | unique =>
          rw [sharing] at child
          cases child
        | shared children =>
          rw [sharing] at child
          obtain ⟨entry, listed, rfl⟩ := List.mem_map.mp child
          exact LeadsToShape.child ih found sharing listed
      · obtain ⟨previous, linked, rfl⟩ := List.mem_map.mp parent
        exact LeadsToShape.previous ih found (Option.mem_toList.mp linked)

variable (live : ∀ root ∈ roots, views.Live root)
include live

theorem reached_of_leads (led : realm.Leads roots handle) :
    Reached realm (realm.rootCells roots) (.object handle) := by
  have edge : ∀ {holder object view target}, realm.objects.get? holder = some object →
      views holder = some view → view.Shows target →
      Cell.object target ∈ realm.edges (.object holder) := by
    intro holder object view target found shown shows
    rw [edges, found]
    exact (holds.mem_object_edges valid found shown).mpr (Or.inr ⟨target, shows, rfl⟩)
  induction led with
  | @root root member =>
    exact .root (List.mem_append_left _ (List.mem_map_of_mem member))
      (holds.alive_object.mpr (live root member))
  | @prototype holder target object led found linked ih =>
    obtain ⟨view, shown, held⟩ := holds.view holder object found
    exact .edge ih (edge found shown (Or.inl (held.prototype.symm.trans linked)))
  | @property holder target key desc later led answered member ih =>
    obtain ⟨view, shown⟩ := holds.alive_object.mp (ih.alive (holds.tight valid))
    obtain ⟨object, found, _⟩ := holds.find shown
    obtain ⟨_, _, ran, _⟩ := holds.getOwn_ok shown key
    rw [ran] at answered
    injection answered with own
    exact .edge ih (edge found shown (Or.inr ⟨key, desc, own, member⟩))

theorem reached_of_leadsToShape (led : realm.LeadsToShape (realm.Leads roots) handle) :
    Reached realm (realm.rootCells roots) (.shape handle) := by
  have rooted := holds.rootCells_alive live
  induction led with
  | objectRoot =>
    have member : Cell.shape realm.objectRoot ∈ realm.rootCells roots :=
      List.mem_append_right _ (List.mem_cons_self ..)
    exact .root member (rooted _ member)
  | arrayRoot =>
    have member : Cell.shape realm.arrayRoot ∈ realm.rootCells roots :=
      List.mem_append_right _ (List.mem_cons_of_mem _ (List.mem_singleton_self _))
    exact .root member (rooted _ member)
  | @current holder object led found =>
    refine .edge (holds.reached_of_leads valid live led) ?_
    rw [edges, found]
    exact List.mem_append_left _ (List.mem_append_left _ (List.mem_cons_self ..))
  | @child parent shape children entry led found sharing member ih =>
    refine .edge ih ?_
    rw [edges, found]
    simp only [Option.map_some, Option.getD_some, Shape.edges, sharing]
    exact List.mem_append_left _ (List.mem_map.mpr ⟨entry, member, rfl⟩)
  | @previous child previous shape led found linked ih =>
    refine .edge ih ?_
    rw [edges, found]
    exact List.mem_append_right _ (List.mem_map_of_mem (Option.mem_toList.mpr linked))

theorem alive_swept_iff_led (cell : Cell) : (realm.swept roots).Alive cell ↔ realm.Led roots cell := by
  rw [alive_swept_iff_reached (holds.tight valid) (clear_of_live (holds.rootCells_alive live))]
  constructor
  · exact holds.led_of_reached valid
  · intro led
    cases cell with
    | object handle => exact holds.reached_of_leads valid live led
    | shape handle => exact holds.reached_of_leadsToShape valid live led

theorem collected : Collected realm roots (realm.census roots) (realm.swept roots) := by
  have tight := holds.tight valid
  have clear := clear_of_live (holds.rootCells_alive live)
  obtain ⟨after, layouts, held⟩ := holds.collect valid clear
  have seen : ∀ {handle}, (realm.swept roots).objects.contains handle = true →
      ∃ view, views handle = some view ∧
        views.restrict (realm.swept roots).objects.contains handle = some view := by
    intro handle survives
    obtain ⟨view, shown⟩ := held.live_iff.mpr survives
    exact ⟨view, (Views.restrict_some.mp shown).2, shown⟩
  exact {
    objects := fun handle => holds.alive_swept_iff_led valid live (.object handle)
    shapes := fun handle => holds.alive_swept_iff_led valid live (.shape handle)
    object := fun handle survives => object_swept survives
    shape := fun handle survives => shape_swept survives
    own := fun handle key survives => by
      obtain ⟨view, before, shown⟩ := seen survives
      obtain ⟨later, _, ran, _⟩ := held.getOwn_ok shown key
      obtain ⟨laterBefore, _, ranBefore, _⟩ := holds.getOwn_ok before key
      exact ⟨view.getOwn key, later, laterBefore, ran, ranBefore⟩
    keys := fun handle filter survives => by
      obtain ⟨view, before, shown⟩ := seen survives
      obtain ⟨listed, later, _, lists, ran, _⟩ := held.keys_ok shown filter
      obtain ⟨listedBefore, laterBefore, _, listsBefore, ranBefore, _⟩ := holds.keys_ok before filter
      rw [lists.unique listsBefore] at ran
      exact ⟨listedBefore, later, laterBefore, ran, ranBefore⟩
    names := fun handle survives => by
      have alive : (realm.swept roots).Alive (.shape handle) := survives
      have liveAfter : after.Live handle := held.alive_shape.mp alive
      have liveBefore : chart.Live handle := holds.alive_shape.mp (alive_of_swept alive)
      obtain ⟨later, _, ran⟩ := Chart.names_ok liveAfter
      obtain ⟨laterBefore, _, ranBefore⟩ := Chart.names_ok liveBefore
      rw [← held.shapes, layouts] at ran
      rw [← holds.shapes] at ranBefore
      exact ⟨_, _, _, ran, ranBefore⟩
    rest := rfl
    tight := tight_swept tight clear
    liveObjects := Arena.ncard_live held.sound
    freedObjects := Arena.ncard_freed _
    liveShapes := Arena.ncard_live (held.shapes ▸ after.charted.sound)
    freedShapes := Arena.ncard_freed _
    again := collect_again tight clear }

end Holds

/-- After a run that passed live handles only, a collection from live roots is exact. -/
theorem collect_exact {host : Host} {config : Config} {requests : List Request}
    {events : List (Request × Reply)} (run : Run host (ofConfig config) requests events realm)
    (live : ∀ root ∈ roots, realm.objects.contains root = true) :
    ∃ census after, collect roots realm = .ok census after ∧ Collected realm roots census after := by
  obtain ⟨chart, views, _, holds, valid⟩ := run.holds
  have rooted : ∀ root ∈ roots, views.Live root :=
    fun root member => holds.live_iff.mpr (live root member)
  exact ⟨_, _, collect_ok realm roots, holds.collected valid rooted⟩

/-- An object holds one object, has deleted a second and has put an accessor in the place of a third;
an array holds a fourth behind a number. -/
def droppingProgram : List Request :=
  let name := Key.named 1
  let holder : Handle := ⟨0, 0⟩
  let array : Handle := ⟨5, 0⟩
  [.intern "name", .newObject none, .newObject none, .newObject none, .newObject none,
    .newObject none, .newArray 2, .define holder (.index 7) (.plain (.object ⟨1, 0⟩)) true,
    .define holder name (.plain (.object ⟨2, 0⟩)) true, .delete holder name true,
    .define holder name (.plain (.object ⟨3, 0⟩)) true,
    .define holder name (.accessor (some .undefined) none {}) true,
    .define array (.index 0) (.plain (.object ⟨4, 0⟩)) true,
    .define array (.index 0) (.plain (.int 1)) true,
    .define holder (.named 0) (.plain (.object array)) true]

theorem collect_exact_dropping :
    passesLive Host.none (ofConfig {}) droppingProgram = true ∧
      (∀ root ∈ [(⟨0, 0⟩ : Handle)],
        ((ofConfig {}).after Host.none droppingProgram).objects.contains root = true) ∧
      ∃ census after,
        collect [⟨0, 0⟩] ((ofConfig {}).after Host.none droppingProgram) = .ok census after ∧
        Collected ((ofConfig {}).after Host.none droppingProgram) [⟨0, 0⟩] census after :=
  have passes : passesLive Host.none (ofConfig {}) droppingProgram = true := by decide +kernel
  have live : ∀ root ∈ [(⟨0, 0⟩ : Handle)],
      ((ofConfig {}).after Host.none droppingProgram).objects.contains root = true := by
    decide +kernel
  ⟨passes, live, collect_exact (Run.of_passesLive passes) live⟩

/-- Only the object, the one that it holds and the array are kept. -/
example : (((ofConfig {}).after Host.none droppingProgram).swept [⟨0, 0⟩]).objects.handles =
    [⟨0, 0⟩, ⟨1, 0⟩, ⟨5, 0⟩] := by
  decide +kernel

end HiddenClass.Realm
