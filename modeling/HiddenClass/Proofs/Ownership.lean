import HiddenClass.Proofs.Identity
import Mathlib.Data.List.Infix

/-!
Who may change a shape. One that is not open to sharing belongs to the object that has it, and no
other shape leads to it or back to it, so it can be edited in place. One that is open to sharing is
never edited: that its table is built or that it gets a further child changes no answer of it, and a
collection keeps it as it is or drops it.
-/

namespace HiddenClass

namespace Shapes

/-- A shape that is open to sharing stays so, with its identity and its slots. Every name that is asked
for has the offset that it had, or has none as before, and a name that was added to the shape before
leads to the same child at the same offset. -/
structure Unaltered (before after : Shapes) (handle : Handle) : Prop where
  cell : ∃ shape cell, before.arena.get? handle = some shape ∧ after.arena.get? handle = some cell ∧
    cell.isUnique = false ∧ cell.id = shape.id ∧ cell.size = shape.size ∧ cell.freed = shape.freed
  lookup : ∀ key, ∃ offset, (lookup handle key).answer? before = some offset ∧
    (lookup handle key).answer? after = some offset
  add : ∀ key child, before.child? handle key = some child →
    ∃ offset, (add handle key).answer? before = some (child, offset) ∧
      (add handle key).answer? after = some (child, offset)

/-- What is left of a shape that is open to sharing, with the children that it had. -/
structure Lasts (before after : Shapes) (handle : Handle) (shape cell : Shape) : Prop
    extends Steadfast before after handle shape cell where
  child : ∀ key child, before.child? handle key = some child → after.child? handle key = some child

variable {before between after : Shapes} {handle : Handle} {shape inner cell : Shape}

theorem Lasts.refl (shared : shape.isUnique = false) : Lasts before before handle shape shape :=
  ⟨.refl shared, fun _ _ => id⟩

theorem Lasts.trans (first : Lasts before between handle shape inner)
    (second : Lasts between after handle inner cell) : Lasts before after handle shape cell where
  toSteadfast := first.toSteadfast.trans second.toSteadfast
  child := fun key child led => second.child key child (first.child key child led)

theorem Grows.lasts (grows : before.Grows after) (found : before.arena.get? handle = some shape)
    (shared : shape.isUnique = false) :
    ∃ cell, after.arena.get? handle = some cell ∧ Lasts before after handle shape cell := by
  obtain ⟨cell, foundAfter, steadfast⟩ := grows.steadfast handle shape found shared
  exact ⟨cell, foundAfter, steadfast, grows.child handle⟩

end Shapes

namespace Chart

variable {before after : Chart} {handle : Handle} {shape cell : Shape}

/-- What lasts of a shape is all that it is asked for. -/
theorem unaltered_of_lasts (found : before.get? handle = some shape)
    (foundAfter : after.get? handle = some cell)
    (lasts : Shapes.Lasts before.shapes after.shapes handle shape cell) :
    before.shapes.Unaltered after.shapes handle where
  cell := by
    refine ⟨shape, cell, found, foundAfter, lasts.shared, ?_, lasts.size, lasts.freed⟩
    rw [Shape.id, Shape.id, lasts.serial]
  lookup := fun key => by
    have live := live_of_get? found
    have liveAfter := live_of_get? foundAfter
    obtain ⟨_, _, ran⟩ := lookup_ok live key
    obtain ⟨_, _, ranAfter⟩ := lookup_ok liveAfter key
    refine ⟨_, Action.answer?_ok ran, ?_⟩
    rw [Action.answer?_ok ranAfter, ← offset?_eq liveAfter, ← offset?_eq live, lasts.offset]
  add := fun key child led => by
    have next : (after.layouts handle).next = (before.layouts handle).next := by
      calc (after.layouts handle).next
        _ = cell.nextOffset := (fits foundAfter).nextOffset_eq.symm
        _ = shape.nextOffset := by
          rw [Shape.nextOffset, Shape.nextOffset, lasts.freed, lasts.size]
        _ = (before.layouts handle).next := (fits found).nextOffset_eq
    refine ⟨_, Action.answer?_ok (add_known led), ?_⟩
    rw [Action.answer?_ok (add_known (lasts.child key child led)), next]

end Chart

namespace Realm

variable {realm : Realm} {chart : Chart} {views : Views} {host : Host} {config : Config} {turn : Turn}
  {turns : List Turn} {roots : List Handle} {handle : Handle} {shape : Shape}

/-- At most one object has the shape, and no shape has it for a child or for the way back. -/
structure Owned (realm : Realm) (handle : Handle) : Prop where
  object : ∀ first second one two, realm.objects.get? first = some one →
    realm.objects.get? second = some two → one.store.shape = handle → two.store.shape = handle →
    first = second
  child : ∀ other cell children, realm.shapes.arena.get? other = some cell →
    cell.sharing = .shared children → ∀ entry ∈ children.entries, entry.2 ≠ handle
  previous : ∀ other cell, realm.shapes.arena.get? other = some cell → cell.previous ≠ some handle

namespace Holds

theorem owned (holds : realm.Holds chart views) (found : realm.shapes.arena.get? handle = some shape)
    (unique : shape.isUnique = true) : realm.Owned handle := by
  rw [holds.shapes] at found
  have apart : ∀ cell, chart.shapes.arena.get? handle = some cell → cell.isUnique ≠ false := by
    intro cell present shared
    cases found.symm.trans present
    rw [unique] at shared
    cases shared
  constructor
  · intro first second one two foundFirst foundSecond had hadToo
    rcases holds.apart first second one two foundFirst foundSecond (had.trans hadToo.symm) with
      same | ⟨cell, present, shared⟩
    · exact same
    · exact absurd shared (apart cell (had ▸ present))
  · rintro other cell children present sharing entry member rfl
    rw [holds.shapes] at present
    have placed := chart.charted.placed other cell present
    obtain ⟨child, childFound, shared, _⟩ := placed.children children sharing entry member
    exact apart child childFound shared
  · intro other cell present linked
    rw [holds.shapes] at present
    have placed := chart.charted.placed other cell present
    obtain ⟨parent, _, parentFound, shared, _⟩ := placed.previous handle linked
    exact apart parent parentFound shared

/-! ### One turn -/

/-- A collection leaves a cell that survives it as it was, and what the cell leads to with it. -/
theorem lasts_swept (holds : realm.Holds chart views) (valid : views.Valid)
    (clear : realm.Clear (realm.rootCells roots))
    (found : realm.shapes.arena.get? handle = some shape) (shared : shape.isUnique = false)
    (survives : (realm.swept roots).Alive (.shape handle)) :
    (realm.swept roots).shapes.arena.get? handle = some shape ∧
      Shapes.Lasts realm.shapes (realm.swept roots).shapes handle shape shape := by
  have same := shape_swept survives
  obtain ⟨after, layouts, held⟩ := holds.collect valid clear
  refine ⟨same.trans found, ⟨shared, rfl, rfl, rfl, fun key => ?_⟩, fun key child led => ?_⟩
  · have live := holds.alive_shape.mp (alive_of_swept survives)
    have liveAfter := held.alive_shape.mp survives
    calc (realm.swept roots).shapes.offset? handle key
      _ = (after.layouts handle).offset? key := by rw [held.shapes, Chart.offset?_eq liveAfter]
      _ = (chart.layouts handle).offset? key := by rw [layouts]
      _ = realm.shapes.offset? handle key := by rw [holds.shapes, Chart.offset?_eq live]
  · rw [Shapes.child?, same]
    exact led

theorem lasts_turn (holds : realm.Holds chart views) (valid : views.Valid) (host : Host)
    (lawful : turn.isLawful realm = true) (found : realm.shapes.arena.get? handle = some shape)
    (shared : shape.isUnique = false)
    (survives : (turn.after host realm).shapes.arena.contains handle = true) :
    ∃ cell, (turn.after host realm).shapes.arena.get? handle = some cell ∧
      Shapes.Lasts realm.shapes (turn.after host realm).shapes handle shape cell := by
  by_cases collecting : ∃ roots, turn.request = .collect roots
  · obtain ⟨roots, same⟩ := collecting
    have named := Turn.namesLive_of_lawful lawful
    rw [same] at named
    cases turn with
    | make request =>
      cases same
      exact ⟨shape, holds.lasts_swept valid (holds.clear named) found shared survives⟩
    | lookUp request =>
      cases same
      exact ⟨shape, found, .refl shared⟩
  · have advances := holds.advances_turn host valid lawful fun roots same => collecting ⟨roots, same⟩
    exact advances.shapes.lasts found shared

/-! ### The rest of a run -/

theorem lasts_course (holds : realm.Holds chart views) (valid : views.Valid)
    (lawful : realm.lawful host turns = true) (found : realm.shapes.arena.get? handle = some shape)
    (shared : shape.isUnique = false)
    (survives : ∀ front, front <+: turns →
      (realm.course host front).shapes.arena.contains handle = true) :
    ∃ cell, (realm.course host turns).shapes.arena.get? handle = some cell ∧
      Shapes.Lasts realm.shapes (realm.course host turns).shapes handle shape cell := by
  induction turns generalizing realm chart views shape with
  | nil => exact ⟨shape, found, .refl shared⟩
  | cons turn rest ih =>
    obtain ⟨first, others⟩ := lawful_cons.mp lawful
    have reached := survives [turn] (List.prefix_append [turn] rest)
    obtain ⟨inner, foundBetween, lasts⟩ := holds.lasts_turn valid host first found shared reached
    obtain ⟨_, _, held, validBetween, _⟩ := holds.takeTurn valid host first
    have later : ∀ front, front <+: rest →
        ((turn.after host realm).course host front).shapes.arena.contains handle = true :=
      fun front before => survives (turn :: front) ((List.prefix_cons_inj turn).mpr before)
    obtain ⟨cell, foundAfter, lastsAfter⟩ :=
      ih held validBetween others foundBetween lasts.shared later
    exact ⟨cell, foundAfter, lasts.trans lastsAfter⟩

end Holds

/-- At every moment of a course with live handles a unique shape is owned, and a shape that is open to
sharing is from then on unaltered for as long as it is live. -/
theorem unique_owned_shared_unaltered (lawful : (ofConfig config).lawful host turns = true) :
    (∀ front, front <+: turns → ∀ handle shape,
      ((ofConfig config).course host front).shapes.arena.get? handle = some shape →
      shape.isUnique = true → ((ofConfig config).course host front).Owned handle) ∧
    ∀ early late, early <+: late → late <+: turns → ∀ handle shape,
      ((ofConfig config).course host early).shapes.arena.get? handle = some shape →
      shape.isUnique = false →
      (∀ front, early <+: front → front <+: late →
        ((ofConfig config).course host front).shapes.arena.contains handle = true) →
      ((ofConfig config).course host early).shapes.Unaltered
        ((ofConfig config).course host late).shapes handle := by
  constructor
  · intro front before handle shape found unique
    obtain ⟨_, _, holds, _⟩ := moment lawful before
    exact holds.owned found unique
  · rintro early late ⟨later, rfl⟩ within handle shape found shared survives
    obtain ⟨rest, rfl⟩ := within
    obtain ⟨lawfulEarly, lawfulLater⟩ := lawful_append.mp (lawful_append.mp lawful).1
    obtain ⟨chart, views, holds, valid⟩ := holds_course lawfulEarly
    have stays : ∀ front, front <+: later →
        (((ofConfig config).course host early).course host front).shapes.arena.contains handle =
          true := by
      intro front before
      rw [← course_append]
      exact survives (early ++ front) (List.prefix_append ..)
        ((List.prefix_append_right_inj early).mpr before)
    obtain ⟨cell, foundAfter, lasts⟩ := holds.lasts_course valid lawfulLater found shared stays
    obtain ⟨after, _, held, _⟩ := holds.course valid lawfulLater
    rw [course_append, holds.shapes, held.shapes]
    rw [holds.shapes] at found lasts
    rw [held.shapes] at foundAfter lasts
    exact Chart.unaltered_of_lasts found foundAfter lasts

/-- Two objects come to have one shape, and the first goes on from it by a further name. -/
def branching : List Turn :=
  [.make (.intern "first"), .make (.intern "second"), .make (.newObject none),
    .make (.newObject none), .make (.put ⟨0, 0⟩ (.named 1) (.int 1) true),
    .make (.put ⟨1, 0⟩ (.named 1) (.int 2) true), .make (.put ⟨0, 0⟩ (.named 2) (.int 3) true)]

/-- One of them loses the name that led to the shape; the other one gets a shape of its own, which is
edited and opened to sharing. An array keeps an element among its properties. A collection frees what
is out of use, and a new object has a shape of its own at a place that was freed. -/
def forking : List Turn :=
  [.make (.delete ⟨0, 0⟩ (.named 1) true), .make (.newObject (some ⟨1, 0⟩)),
    .make (.put ⟨2, 0⟩ (.named 1) (.object ⟨1, 0⟩) true), .make (.makeUnique ⟨1, 0⟩),
    .make (.put ⟨1, 0⟩ (.index 9) (.int 4) true), .make (.delete ⟨1, 0⟩ (.named 1) true),
    .make (.makeTransitionable ⟨1, 0⟩), .make (.newArray 3),
    .make (.define ⟨3, 0⟩ (.index 1) (.data (.int 5) {}) true), .make (.collect [⟨2, 0⟩]),
    .lookUp (.read ⟨2, 0⟩ (.named 2)), .make (.newUniqueObject none)]

theorem unique_owned_shared_unaltered_forking :
    (ofConfig {}).lawful Host.none (branching ++ forking) = true ∧
      (((ofConfig {}).course Host.none branching).shapes.arena.get? ⟨2, 0⟩).map Shape.isUnique =
        some false ∧
      (∀ front ∈ forking.inits, ((ofConfig {}).course Host.none
        (branching ++ front)).shapes.arena.contains ⟨2, 0⟩ = true) ∧
      ((ofConfig {}).course Host.none branching).shapes.Unaltered
        ((ofConfig {}).course Host.none (branching ++ forking)).shapes ⟨2, 0⟩ ∧
      (((ofConfig {}).course Host.none (branching ++ forking)).shapes.arena.get? ⟨4, 1⟩).map
        Shape.isUnique = some true ∧
      ((ofConfig {}).course Host.none (branching ++ forking)).Owned ⟨4, 1⟩ := by
  have lawful : (ofConfig {}).lawful Host.none (branching ++ forking) = true := by decide +kernel
  have opened : (((ofConfig {}).course Host.none branching).shapes.arena.get? ⟨2, 0⟩).map
      Shape.isUnique = some false := by decide +kernel
  have stays : ∀ front ∈ forking.inits, ((ofConfig {}).course Host.none
      (branching ++ front)).shapes.arena.contains ⟨2, 0⟩ = true := by decide +kernel
  have isolated : (((ofConfig {}).course Host.none (branching ++ forking)).shapes.arena.get?
      ⟨4, 1⟩).map Shape.isUnique = some true := by decide +kernel
  obtain ⟨shape, found, shared⟩ := Option.map_eq_some_iff.mp opened
  obtain ⟨own, foundOwn, unique⟩ := Option.map_eq_some_iff.mp isolated
  have ⟨owned, unaltered⟩ := unique_owned_shared_unaltered lawful
  refine ⟨lawful, opened, stays, ?_, isolated, owned _ (List.prefix_refl _) _ own foundOwn unique⟩
  apply unaltered branching _ (List.prefix_append ..) (List.prefix_refl _) _ shape found shared
  rintro _ ⟨front, rfl⟩ before
  exact stays front ((List.mem_inits ..).mpr ((List.prefix_append_right_inj branching).mp before))

end Realm

end HiddenClass
