import HiddenClass.Proofs.Realm.Advance

/-!
Caches that are keyed by the identity of a shape. A unique shape keeps its identity when it gains a
name or is opened to sharing, and gets a new one when it loses a name; cells are used again and
identities are not. So an identity stands for an offset for good once it does.
-/

namespace HiddenClass

theorem Shape.toNat_id {shape : Shape} (small : shape.serial < 2 ^ 32) :
    shape.id.toNat = shape.serial := by
  rw [id, UInt32.toNat_ofNat', Nat.mod_eq_of_lt small]

namespace Realm

variable {realm : Realm} {chart : Chart} {views : Views} {host : Host} {config : Config} {turn : Turn}
  {turns : List Turn} {roots : List Handle} {object : Handle} {holder : Object}

/-- The identity of the shape that an object has. -/
def shapeId? (realm : Realm) (object : Handle) : Option UInt32 := do
  let holder ← realm.objects.get? object
  let shape ← realm.shapes.arena.get? holder.store.shape
  return shape.id

/-- The offset to which the shape that an object has resolves a name. -/
def resolve (realm : Realm) (object : Handle) (key : Key) : Option Nat := do
  let holder ← realm.objects.get? object
  match Shapes.lookup holder.store.shape key realm.shapes with
  | .ok offset _ => offset
  | .error _ _ => none

def slotCount (realm : Realm) (object : Handle) : Nat :=
  ((realm.objects.get? object).map fun holder => holder.store.slots.size).getD 0

/-! ### One turn -/

namespace Holds

theorem continues_swept (holds : realm.Holds chart views) (valid : views.Valid)
    (clear : realm.Clear (realm.rootCells roots)) :
    realm.shapes.Continues (realm.swept roots).shapes := by
  obtain ⟨after, layouts, held⟩ := holds.collect valid clear
  have before : ∀ handle cell, (realm.swept roots).shapes.arena.get? handle = some cell →
      realm.shapes.arena.get? handle = some cell := by
    intro handle cell found
    have survives : (realm.swept roots).Alive (.shape handle) := Arena.contains_of_get? found
    exact (shape_swept survives).symm.trans found
  refine ⟨Nat.le_refl _, fun handle cell found _ => ?_, fun distinct => ?_⟩
  · refine ⟨cell, before handle cell found, rfl, fun key offset placed => ?_⟩
    have live := holds.alive_shape.mp (Arena.contains_of_get? (before handle cell found))
    have liveAfter := held.alive_shape.mp (Arena.contains_of_get? found)
    calc (realm.swept roots).shapes.offset? handle key
      _ = (after.layouts handle).offset? key := by rw [held.shapes, Chart.offset?_eq liveAfter]
      _ = (chart.layouts handle).offset? key := by rw [layouts]
      _ = realm.shapes.offset? handle key := by rw [holds.shapes, Chart.offset?_eq live]
      _ = some offset := placed
  · intro first second shape other foundFirst foundSecond same
    exact distinct first second shape other (before first shape foundFirst)
      (before second other foundSecond) same

theorem continues_turn (holds : realm.Holds chart views) (valid : views.Valid) (host : Host)
    (lawful : turn.isLawful realm = true) :
    realm.shapes.Continues (turn.after host realm).shapes := by
  by_cases collecting : ∃ roots, turn.request = .collect roots
  · obtain ⟨roots, same⟩ := collecting
    have named := Turn.namesLive_of_lawful lawful
    rw [same] at named
    cases turn with
    | make request =>
      cases same
      exact holds.continues_swept valid (holds.clear named)
    | lookUp request =>
      cases same
      exact .refl realm.shapes
  · exact (holds.advances_turn host valid lawful
      fun roots same => collecting ⟨roots, same⟩).shapes.toContinues

theorem continues_course (holds : realm.Holds chart views) (valid : views.Valid)
    (lawful : realm.lawful host turns = true) :
    realm.shapes.Continues (realm.course host turns).shapes := by
  induction turns generalizing realm chart views with
  | nil => exact .refl realm.shapes
  | cons turn rest ih =>
    obtain ⟨first, others⟩ := lawful_cons.mp lawful
    obtain ⟨between, seen, held, validBetween, _⟩ := holds.takeTurn valid host first
    exact (holds.continues_turn valid host first).trans (ih held validBetween others)

/-! ### What an identity stands for -/

theorem resolve_eq (holds : realm.Holds chart views) (found : realm.objects.get? object = some holder)
    (key : Key) : realm.resolve object key = realm.shapes.offset? holder.store.shape key := by
  obtain ⟨view, _, held⟩ := holds.view object holder found
  obtain ⟨after, _, ran⟩ := Chart.lookup_ok held.live key
  unfold resolve
  rw [found, holds.shapes, Chart.offset?_eq held.live]
  simp only [Option.bind_eq_bind, Option.bind_some, ran]

/-- A name has the offset that it has in the record of the store. -/
theorem resolve_stored (holds : realm.Holds chart views)
    (found : realm.objects.get? object = some holder) {record : Record}
    (stored : holder.store.Holds chart record) (key : Key) :
    realm.resolve object key = record.layout.offset? key := by
  rw [holds.resolve_eq found, holds.shapes, Chart.offset?_eq stored.live, stored.layout]

theorem resolve_lt_slotCount (holds : realm.Holds chart views) {key : Key} {offset : Nat}
    (resolved : realm.resolve object key = some offset) : offset < realm.slotCount object := by
  cases found : realm.objects.get? object with
  | none =>
    rw [resolve, found] at resolved
    cases resolved
  | some holder =>
    obtain ⟨view, _, held⟩ := holds.view object holder found
    obtain ⟨record, storeHeld⟩ := held.content.store
    rw [holds.resolve_stored found storeHeld] at resolved
    rw [slotCount, found]
    exact storeHeld.offset_lt resolved

theorem serial_lt (holds : realm.Holds chart views) {handle : Handle} {shape : Shape}
    (found : realm.shapes.arena.get? handle = some shape) : shape.serial < realm.shapes.issued := by
  rw [holds.shapes] at found ⊢
  exact (Chart.placed found).issued

/-- As long as no more identities are issued than there are, they tell shapes apart. -/
theorem serial_eq_of_id (holds : realm.Holds chart views) (few : realm.shapes.issued ≤ 2 ^ 32)
    {handle : Handle} {shape cell : Shape} (found : realm.shapes.arena.get? handle = some shape)
    (small : cell.serial < 2 ^ 32) (same : shape.id = cell.id) : shape.serial = cell.serial := by
  have bound := holds.serial_lt found
  calc shape.serial
    _ = shape.id.toNat := (Shape.toNat_id (by omega)).symm
    _ = cell.id.toNat := congrArg UInt32.toNat same
    _ = cell.serial := Shape.toNat_id small

end Holds

theorem shapeId?_eq_some {id : UInt32} (known : realm.shapeId? object = some id) :
    ∃ holder shape, realm.objects.get? object = some holder ∧
      realm.shapes.arena.get? holder.store.shape = some shape ∧ shape.id = id := by
  obtain ⟨holder, found, rest⟩ := Option.bind_eq_some_iff.mp known
  obtain ⟨shape, present, same⟩ := Option.bind_eq_some_iff.mp rest
  exact ⟨holder, shape, found, present, Option.some.inj same⟩

/-! ### Courses -/

/-- The two shapes that a realm starts with have identities of their own. -/
theorem distinct_ofConfig (config : Config) : (ofConfig config).shapes.Distinct := by
  have empty : ({} : Arena Shape).Sound := Arena.sound_empty
  have sound := Arena.sound_alloc empty (Shape.root 0)
  have listed : ∀ handle shape, (ofConfig config).shapes.arena.get? handle = some shape →
      handle = (ofConfig config).objectRoot ∧ shape.serial = 0 ∨
        handle = (ofConfig config).arrayRoot ∧ shape.serial = 1 := by
    intro handle shape found
    have cells : (ofConfig config).shapes.arena.get? handle =
        if handle = (ofConfig config).arrayRoot then some (Shape.root 1)
        else if handle = (ofConfig config).objectRoot then some (Shape.root 0) else none := by
      apply (Arena.get?_alloc sound (Shape.root 1) handle).trans
      exact congrArg (ite _ _) (Arena.get?_alloc empty (Shape.root 0) handle)
    rw [cells] at found
    by_cases array : handle = (ofConfig config).arrayRoot
    · rw [if_pos array] at found
      cases found
      exact Or.inr ⟨array, rfl⟩
    · rw [if_neg array] at found
      by_cases ordinary : handle = (ofConfig config).objectRoot
      · rw [if_pos ordinary] at found
        cases found
        exact Or.inl ⟨ordinary, rfl⟩
      · rw [if_neg ordinary] at found
        cases found
  intro first second shape other foundFirst foundSecond same
  rcases listed first shape foundFirst with ⟨one, serial⟩ | ⟨one, serial⟩ <;>
    rcases listed second other foundSecond with ⟨two, serialOther⟩ | ⟨two, serialOther⟩
  · exact one.trans two.symm
  · omega
  · omega
  · exact one.trans two.symm

/-- At every moment of a course identities are apart, and there are no more of them than later. -/
theorem moment {front : List Turn} (lawful : (ofConfig config).lawful host turns = true)
    (before : front <+: turns) :
    ∃ (chart : Chart) (views : Views), ((ofConfig config).course host front).Holds chart views ∧
      views.Valid ∧ ((ofConfig config).course host front).shapes.Distinct ∧
      ((ofConfig config).course host front).shapes.Continues
        ((ofConfig config).course host turns).shapes := by
  obtain ⟨later, rfl⟩ := before
  obtain ⟨lawfulFront, lawfulLater⟩ := lawful_append.mp lawful
  obtain ⟨start, first⟩ := holds_ofConfig config
  obtain ⟨chart, views, holds, valid⟩ := holds_course lawfulFront
  have begun := first.continues_course valid_empty lawfulFront
  have rest := holds.continues_course valid lawfulLater
  rw [← course_append] at rest
  exact ⟨chart, views, holds, valid, begun.distinct (distinct_ofConfig config), rest⟩

/-- Once an identity stands for an offset of a name, it does so for every object that comes to have
it, and the offset is that of a slot. The course passes live handles only. -/
theorem caches_stay (lawful : (ofConfig config).lawful host turns = true)
    (few : ((ofConfig config).course host turns).shapes.issued ≤ 2 ^ 32) :
    (∀ front, front <+: turns → ∀ first second shape other,
      ((ofConfig config).course host front).shapes.arena.get? first = some shape →
      ((ofConfig config).course host front).shapes.arena.get? second = some other →
      shape.id = other.id → first = second) ∧
    ∀ early late, early <+: late → late <+: turns → ∀ object other key offset id,
      ((ofConfig config).course host early).shapeId? object = some id →
      ((ofConfig config).course host early).resolve object key = some offset →
      ((ofConfig config).course host late).shapeId? other = some id →
      ((ofConfig config).course host late).resolve other key = some offset ∧
        offset < ((ofConfig config).course host late).slotCount other := by
  constructor
  · intro front before first second shape other found foundOther same
    obtain ⟨chart, views, holds, _, distinct, rest⟩ := moment lawful before
    have bound := rest.issued.trans few
    have small := Nat.lt_of_lt_of_le (holds.serial_lt foundOther) bound
    exact distinct first second shape other found foundOther
      (holds.serial_eq_of_id bound found small same)
  · intro early late before within object other key offset id known resolved knownLate
    obtain ⟨_, _, holdsLate, validLate, _, rest⟩ := moment lawful within
    have boundLate := rest.issued.trans few
    have lawfulLate : (ofConfig config).lawful host late = true := by
      obtain ⟨later, rfl⟩ := within
      exact (lawful_append.mp lawful).1
    obtain ⟨_, _, holds, valid, distinct, continues⟩ := moment lawfulLate before
    obtain ⟨holder, shape, found, present, rfl⟩ := shapeId?_eq_some known
    obtain ⟨current, cell, foundLate, presentLate, same⟩ := shapeId?_eq_some knownLate
    have small := Nat.lt_of_lt_of_le (holds.serial_lt present) (continues.issued.trans boundLate)
    have serial := holdsLate.serial_eq_of_id boundLate presentLate small same
    -- the shape that has the identity now had it then, so it is the one that was asked
    obtain ⟨old, presentOld, sameSerial, kept⟩ :=
      continues.old current.store.shape cell presentLate (serial ▸ holds.serial_lt present)
    have one := distinct current.store.shape holder.store.shape old shape presentOld present
      (sameSerial.trans serial)
    have answer : ((ofConfig config).course host late).resolve other key = some offset := by
      rw [holds.resolve_eq found, ← one] at resolved
      rw [holdsLate.resolve_eq foundLate]
      exact kept key offset resolved
    exact ⟨answer, holdsLate.resolve_lt_slotCount answer⟩

/-- An object and one with a shape of its own get a name. -/
def caching : List Turn :=
  [.make (.intern "name"), .make (.newObject none), .make (.put ⟨0, 0⟩ (.named 1) (.int 1) true),
    .make (.newUniqueObject none), .make (.put ⟨1, 0⟩ (.named 1) (.int 2) true)]

/-- Both lose the name again, the second one gets another at the same offset, and the first one is
freed. Its cells are used again, and the object that takes its place gets the name. -/
def recaching : List Turn :=
  [.make (.delete ⟨0, 0⟩ (.named 1) true), .make (.delete ⟨1, 0⟩ (.named 1) true),
    .make (.put ⟨1, 0⟩ (.index 4) (.int 3) true), .make (.makeTransitionable ⟨1, 0⟩),
    .make (.put ⟨1, 0⟩ (.index 5) (.int 4) true), .make (.collect [⟨1, 0⟩]),
    .make (.newObject none), .make (.makeUnique ⟨1, 0⟩), .lookUp (.read ⟨1, 0⟩ (.named 1)),
    .make (.put ⟨0, 1⟩ (.named 1) (.object ⟨1, 0⟩) true)]

theorem caches_stay_recycling :
    (ofConfig {}).lawful Host.none (caching ++ recaching) = true ∧
      ((ofConfig {}).course Host.none (caching ++ recaching)).shapes.issued ≤ 2 ^ 32 ∧
      ((ofConfig {}).course Host.none caching).shapeId? ⟨0, 0⟩ = some 2 ∧
      ((ofConfig {}).course Host.none caching).resolve ⟨0, 0⟩ (.named 1) = some 0 ∧
      ((ofConfig {}).course Host.none (caching ++ recaching)).shapeId? ⟨0, 1⟩ = some 2 ∧
      ((ofConfig {}).course Host.none (caching ++ recaching)).resolve ⟨0, 1⟩ (.named 1) = some 0 ∧
      0 < ((ofConfig {}).course Host.none (caching ++ recaching)).slotCount ⟨0, 1⟩ :=
  have lawful : (ofConfig {}).lawful Host.none (caching ++ recaching) = true := by decide +kernel
  have few : ((ofConfig {}).course Host.none (caching ++ recaching)).shapes.issued ≤ 2 ^ 32 := by
    decide +kernel
  have known : ((ofConfig {}).course Host.none caching).shapeId? ⟨0, 0⟩ = some 2 := by
    decide +kernel
  have resolved : ((ofConfig {}).course Host.none caching).resolve ⟨0, 0⟩ (.named 1) = some 0 := by
    decide +kernel
  have later : ((ofConfig {}).course Host.none (caching ++ recaching)).shapeId? ⟨0, 1⟩ = some 2 := by
    decide +kernel
  ⟨lawful, few, known, resolved, later, (caches_stay lawful few).2 caching (caching ++ recaching)
    (List.prefix_append ..) (List.prefix_refl _) ⟨0, 0⟩ ⟨0, 1⟩ (.named 1) 0 2 known resolved later⟩

/-- The shape of its own keeps its identity as it gains a name, and has another when it loses one and
the offset is used again. -/
example : ((ofConfig {}).course Host.none caching).shapeId? ⟨1, 0⟩ = some 3 ∧
    ((ofConfig {}).course Host.none caching).resolve ⟨1, 0⟩ (.named 1) = some 0 ∧
    ((ofConfig {}).course Host.none (caching ++ recaching.take 4)).shapeId? ⟨1, 0⟩ = some 5 ∧
    ((ofConfig {}).course Host.none (caching ++ recaching.take 4)).resolve ⟨1, 0⟩ (.index 4) =
      some 0 := by
  decide +kernel

end Realm

end HiddenClass
