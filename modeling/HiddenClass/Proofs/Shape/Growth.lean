import HiddenClass.Proofs.Shape.Chart

/-!
How a heap of shapes grows. The full table of a shape is that of its layout. Identities are issued in
turn, and a shape whose identity was issued before has been at its handle since, with all the names
that it had then at their offsets. What a shared shape leads to, it leads to from then on.
-/

namespace HiddenClass

/-- The shape that a name leads to, once it was added. -/
def Shape.child? (shape : Shape) (key : Key) : Option Handle :=
  match shape.sharing with
  | .unique => none
  | .shared children => children.find? key

theorem Shape.mem_of_child? {shape : Shape} {key : Key} {child : Handle}
    (known : shape.child? key = some child) :
    ∃ children, shape.sharing = .shared children ∧ (key, child) ∈ children.entries := by
  unfold child? at known
  cases sharing : shape.sharing with
  | unique =>
    rw [sharing] at known
    cases known
  | shared children =>
    simp only [sharing] at known
    exact ⟨children, rfl, Transitions.mem_of_find? known⟩

theorem Shape.child?_of_unique {shape : Shape} (unique : shape.isUnique = true) (key : Key) :
    shape.child? key = none := by
  unfold child?
  cases sharing : shape.sharing with
  | unique => rfl
  | shared children =>
    rw [isUnique, sharing] at unique
    cases unique

namespace Shapes

variable {before between after : Shapes}

/-- The offset of a name in the full table of a shape. -/
def offset? (shapes : Shapes) (handle : Handle) (key : Key) : Option Nat :=
  match gather shapes.arena shapes.arena.capacity handle with
  | .ok table => table.find? key
  | .error _ => none

def child? (shapes : Shapes) (handle : Handle) (key : Key) : Option Handle :=
  (shapes.arena.get? handle).bind fun shape => shape.child? key

/-- No two shapes have one identity. -/
def Distinct (shapes : Shapes) : Prop :=
  ∀ first second shape other, shapes.arena.get? first = some shape →
    shapes.arena.get? second = some other → shape.serial = other.serial → first = second

/-- Shapes may come, go and gain names, but an identity stands for the names that it once stood for. -/
structure Continues (before after : Shapes) : Prop where
  issued : before.issued ≤ after.issued
  old : ∀ handle cell, after.arena.get? handle = some cell → cell.serial < before.issued →
    ∃ shape, before.arena.get? handle = some shape ∧ shape.serial = cell.serial ∧
      ∀ key offset, before.offset? handle key = some offset → after.offset? handle key = some offset
  distinct : before.Distinct → after.Distinct

/-- What a shape that is open to sharing looks like from then on. -/
structure Steadfast (before after : Shapes) (handle : Handle) (shape cell : Shape) : Prop where
  shared : cell.isUnique = false
  serial : cell.serial = shape.serial
  size : cell.size = shape.size
  freed : cell.freed = shape.freed
  offset : ∀ key, after.offset? handle key = before.offset? handle key

/-- Shapes also stay where the names lead that were added to them, and are left as they are once they
are open to sharing. -/
structure Grows (before after : Shapes) : Prop extends Continues before after where
  child : ∀ handle key child, before.child? handle key = some child →
    after.child? handle key = some child
  steadfast : ∀ handle shape, before.arena.get? handle = some shape → shape.isUnique = false →
    ∃ cell, after.arena.get? handle = some cell ∧ Steadfast before after handle shape cell

theorem Continues.refl (shapes : Shapes) : Continues shapes shapes where
  issued := Nat.le_refl _
  old := fun _ cell found _ => ⟨cell, found, rfl, fun _ _ => id⟩
  distinct := id

theorem Continues.trans (first : Continues before between) (second : Continues between after) :
    Continues before after where
  issued := first.issued.trans second.issued
  old := fun handle cell found earlier => by
    obtain ⟨inner, foundBetween, same, kept⟩ :=
      second.old handle cell found (Nat.lt_of_lt_of_le earlier first.issued)
    obtain ⟨shape, foundBefore, equal, keptFirst⟩ :=
      first.old handle inner foundBetween (same ▸ earlier)
    exact ⟨shape, foundBefore, equal.trans same,
      fun key offset placed => kept key offset (keptFirst key offset placed)⟩
  distinct := fun distinct => second.distinct (first.distinct distinct)

theorem Steadfast.refl {handle : Handle} {shape : Shape} (shared : shape.isUnique = false) :
    Steadfast before before handle shape shape :=
  ⟨shared, rfl, rfl, rfl, fun _ => rfl⟩

theorem Steadfast.trans {handle : Handle} {shape inner cell : Shape}
    (first : Steadfast before between handle shape inner)
    (second : Steadfast between after handle inner cell) :
    Steadfast before after handle shape cell where
  shared := second.shared
  serial := second.serial.trans first.serial
  size := second.size.trans first.size
  freed := second.freed.trans first.freed
  offset := fun key => (second.offset key).trans (first.offset key)

theorem Grows.refl (shapes : Shapes) : Grows shapes shapes :=
  ⟨Continues.refl shapes, fun _ _ _ => id, fun _ shape found shared => ⟨shape, found, .refl shared⟩⟩

theorem Grows.trans (first : Grows before between) (second : Grows between after) :
    Grows before after where
  toContinues := first.toContinues.trans second.toContinues
  child := fun handle key child led => second.child handle key child (first.child handle key child led)
  steadfast := fun handle shape found shared => by
    obtain ⟨inner, foundBetween, kept⟩ := first.steadfast handle shape found shared
    obtain ⟨cell, foundAfter, keptAfter⟩ := second.steadfast handle inner foundBetween kept.shared
    exact ⟨cell, foundAfter, kept.trans keptAfter⟩

end Shapes

namespace Chart

variable {chart before after : Chart} {handle own : Handle} {shape cell : Shape} {layout : Layout}
  {key : Key}

/-! ### The full table -/

/-- How many live shapes have an identity up to the one given. -/
def rank (chart : Chart) (serial : Nat) : Nat :=
  chart.shapes.arena.handles.countP fun handle =>
    (chart.get? handle).any fun shape => shape.serial ≤ serial

theorem rank_le_capacity (chart : Chart) (serial : Nat) :
    chart.rank serial ≤ chart.shapes.arena.capacity :=
  List.countP_le_length.trans (Arena.length_handles_le _)

theorem rank_lt (found : chart.get? handle = some shape) {serial : Nat}
    (earlier : serial < shape.serial) : chart.rank serial < chart.rank shape.serial := by
  have member := Arena.mem_handles.mpr (live_of_get? found)
  unfold rank
  obtain ⟨front, back, split⟩ := List.append_of_mem member
  rw [split, List.countP_append, List.countP_append, List.countP_cons, List.countP_cons, found]
  have grows : ∀ handles : List Handle,
      handles.countP (fun handle => (chart.get? handle).any fun shape => shape.serial ≤ serial) ≤
      handles.countP (fun handle => (chart.get? handle).any fun cell => cell.serial ≤ shape.serial) := by
    intro handles
    apply List.countP_mono_left
    intro other _ counted
    cases present : chart.get? other with
    | none => simp [present] at counted
    | some cell =>
      simp only [present, Option.any_some, decide_eq_true_eq] at counted ⊢
      omega
  have left := grows front
  have right := grows back
  have out : ¬shape.serial ≤ serial := by omega
  simp only [Option.any_some, out, decide_false, Bool.false_eq_true, if_false, Nat.le_refl,
    decide_true, if_true]
  omega

/-- The way back never gets longer than the arena, since identities go down along it. -/
theorem gather_ok (found : chart.get? handle = some shape) {bound : Nat}
    (enough : chart.rank shape.serial ≤ bound) :
    Shapes.gather chart.shapes.arena bound handle = .ok (chart.layouts handle).table := by
  induction bound generalizing handle shape with
  | zero =>
    -- a live shape counts in its own rank, so the bound is not used up here
    have member := Arena.mem_handles.mpr (live_of_get? found)
    have positive : 0 < chart.rank shape.serial :=
      List.countP_pos_iff.mpr ⟨handle, member, by simp [found]⟩
    omega
  | succ bound ih =>
    have placed := placed found
    change chart.shapes.arena.get? handle = some shape at found
    unfold Shapes.gather
    cases built : shape.table with
    | some table => simp only [found, built, (placed.fits.table table built).1]
    | none =>
      cases linked : shape.previous with
      | none =>
        obtain ⟨added, empty⟩ := placed.root built linked
        simp only [found, built, linked, added, empty]
        rfl
      | some previous =>
        obtain ⟨parent, key, parentFound, _, earlier, extension⟩ := placed.previous previous linked
        have shorter := rank_lt found earlier
        have inherited := ih parentFound (by omega)
        simp only [found, built, linked, extension.added, extension.layout, inherited]
        rfl

theorem fullTable_ok (live : chart.Live handle) :
    Shapes.fullTable handle chart.shapes = .ok (chart.layouts handle).table chart.shapes := by
  obtain ⟨shape, found⟩ := live_iff.mp live
  unfold Shapes.fullTable
  rw [Action.bind_ok (Action.get_apply _), gather_ok found (chart.rank_le_capacity _)]
  rfl

theorem offset?_eq (live : chart.Live handle) (key : Key) :
    chart.shapes.offset? handle key = (chart.layouts handle).offset? key := by
  obtain ⟨shape, found⟩ := live_iff.mp live
  unfold Shapes.offset?
  rw [gather_ok found (chart.rank_le_capacity _)]
  rfl

/-! ### Growing -/

theorem child?_eq (found : chart.get? handle = some shape) (key : Key) :
    chart.shapes.child? handle key = shape.child? key := by
  change chart.shapes.arena.get? handle = some shape at found
  rw [Shapes.child?, found]
  rfl

theorem follows_of_child? {child : Handle} (led : chart.shapes.child? handle key = some child) :
    Shapes.Follows chart.shapes chart.layouts (chart.layouts handle) key child := by
  obtain ⟨shape, found, known⟩ := Option.bind_eq_some_iff.mp led
  obtain ⟨children, sharing, member⟩ := Shape.mem_of_child? known
  exact (placed found).children children sharing (key, child) member

/-- Under one layout and one identity, cells that are open to sharing look alike. -/
theorem steadfast_of_layout (found : before.get? handle = some shape)
    (foundAfter : after.get? handle = some cell) (shared : cell.isUnique = false)
    (serial : cell.serial = shape.serial) (same : after.layouts handle = before.layouts handle) :
    Shapes.Steadfast before.shapes after.shapes handle shape cell where
  shared := shared
  serial := serial
  size := by rw [(fits foundAfter).size_eq, (fits found).size_eq, same]
  freed := by rw [(fits foundAfter).freed, (fits found).freed, same]
  offset := fun key => by
    rw [offset?_eq (live_of_get? foundAfter), offset?_eq (live_of_get? found), same]

/-- A cell may gain names under the identity that it has unless it is open to sharing, and children if
it is. -/
theorem grows_of_edit (found : before.get? handle = some shape)
    (issued : before.shapes.issued ≤ after.shapes.issued)
    (cells : ∀ other, after.get? other = if other = handle then some cell else before.get? other)
    (layouts : after.layouts = Function.update before.layouts handle layout)
    (steady : shape.isUnique = false → Shapes.Steady shape cell (before.layouts handle) layout)
    (serial : cell.serial = shape.serial)
    (names : ∀ key offset, (before.layouts handle).offset? key = some offset →
      layout.offset? key = some offset)
    (children : ∀ key child, shape.child? key = some child → cell.child? key = some child) :
    before.shapes.Grows after.shapes := by
  have back : ∀ other present, after.get? other = some present →
      ∃ earlier, before.get? other = some earlier ∧ earlier.serial = present.serial := by
    intro other present presentFound
    rw [cells] at presentFound
    by_cases same : other = handle
    · rw [if_pos same] at presentFound
      cases presentFound
      exact ⟨shape, same ▸ found, serial.symm⟩
    · rw [if_neg same] at presentFound
      exact ⟨present, presentFound, rfl⟩
  refine ⟨⟨issued, ?_, ?_⟩, ?_, ?_⟩
  · intro other present presentFound _
    obtain ⟨earlier, foundBefore, same⟩ := back other present presentFound
    refine ⟨earlier, foundBefore, same, fun key offset placed => ?_⟩
    rw [offset?_eq (live_of_get? foundBefore)] at placed
    rw [offset?_eq (live_of_get? presentFound), layouts, Function.update_apply]
    by_cases here : other = handle
    · rw [if_pos here]
      exact names key offset (here ▸ placed)
    · rw [if_neg here]
      exact placed
  · intro distinct first second one two foundFirst foundSecond same
    obtain ⟨oneBefore, foundOne, sameOne⟩ := back first one foundFirst
    obtain ⟨twoBefore, foundTwo, sameTwo⟩ := back second two foundSecond
    exact distinct first second oneBefore twoBefore foundOne foundTwo
      (sameOne.trans (same.trans sameTwo.symm))
  · intro other key child led
    by_cases here : other = handle
    · rw [here, child?_eq found] at led
      rw [here, child?_eq ((cells handle).trans (if_pos rfl))]
      exact children key child led
    · have same : after.shapes.arena.get? other = before.shapes.arena.get? other :=
        (cells other).trans (if_neg here)
      rw [Shapes.child?, same]
      exact led
  · intro other present presentFound shared
    by_cases here : other = handle
    · subst here
      cases found.symm.trans presentFound
      have kept := steady shared
      have foundAfter : after.get? other = some cell := (cells other).trans (if_pos rfl)
      refine ⟨cell, foundAfter, steadfast_of_layout found foundAfter kept.shared kept.serial ?_⟩
      rw [layouts, Function.update_self, kept.layout]
    · have foundAfter : after.get? other = some present :=
        ((cells other).trans (if_neg here)).trans presentFound
      refine ⟨present, foundAfter, steadfast_of_layout presentFound foundAfter shared rfl ?_⟩
      rw [layouts, Function.update_of_ne here]

/-- A cell may come in, or take the place of a unique one, with the next identity. -/
theorem grows_of_fresh (issued : after.shapes.issued = before.shapes.issued + 1)
    (cells : ∀ other, after.get? other = if other = own then some cell else before.get? other)
    (layouts : after.layouts = Function.update before.layouts own layout)
    (serial : cell.serial = before.shapes.issued)
    (unique : ∀ present, before.get? own = some present → present.isUnique = true) :
    before.shapes.Grows after.shapes := by
  have elsewhere : ∀ {other}, other ≠ own → after.get? other = before.get? other :=
    fun different => (cells _).trans (if_neg different)
  have fresh : ∀ {present}, after.get? own = some present → present.serial = before.shapes.issued := by
    intro present found
    rw [cells, if_pos rfl] at found
    cases found
    exact serial
  have older : ∀ {other present}, other ≠ own → after.get? other = some present →
      present.serial < before.shapes.issued := by
    intro other present different found
    rw [elsewhere different] at found
    exact (placed found).issued
  refine ⟨⟨by omega, ?_, ?_⟩, ?_, ?_⟩
  · intro other present found earlier
    have different : other ≠ own := by
      rintro rfl
      have same := fresh found
      omega
    have foundBefore := (elsewhere different).symm.trans found
    refine ⟨present, foundBefore, rfl, fun key offset placed => ?_⟩
    rw [offset?_eq (live_of_get? foundBefore)] at placed
    rw [offset?_eq (live_of_get? found), layouts, Function.update_of_ne different]
    exact placed
  · intro distinct first second one two foundFirst foundSecond same
    by_cases firstOwn : first = own
    · by_cases secondOwn : second = own
      · exact firstOwn.trans secondOwn.symm
      · have earlier := older secondOwn foundSecond
        have last := fresh (firstOwn ▸ foundFirst)
        omega
    · by_cases secondOwn : second = own
      · have earlier := older firstOwn foundFirst
        have last := fresh (secondOwn ▸ foundSecond)
        omega
      · exact distinct first second one two ((elsewhere firstOwn).symm.trans foundFirst)
          ((elsewhere secondOwn).symm.trans foundSecond) same
  · intro other key child led
    by_cases here : other = own
    · obtain ⟨present, found, known⟩ := Option.bind_eq_some_iff.mp (here ▸ led)
      rw [Shape.child?_of_unique (unique present found)] at known
      cases known
    · have same : after.shapes.arena.get? other = before.shapes.arena.get? other := elsewhere here
      rw [Shapes.child?, same]
      exact led
  · intro other present found shared
    have different : other ≠ own := by
      rintro rfl
      rw [unique present found] at shared
      cases shared
    have foundAfter := (elsewhere different).trans found
    refine ⟨present, foundAfter, steadfast_of_layout found foundAfter shared rfl ?_⟩
    rw [layouts, Function.update_of_ne different]

end Chart

end HiddenClass
