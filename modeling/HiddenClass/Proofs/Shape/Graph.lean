import HiddenClass.Proofs.Shape.Growth

/-!
What the shape operations do to a chart. None of them fails on live shapes.
-/

namespace HiddenClass

namespace Chart

variable {chart before between after : Chart} {handle own other : Handle} {shape cell : Shape}
  {layout : Layout} {key : Key}

/-! ### Comparing charts -/

/-- The later chart shows what the earlier one shows. -/
structure Extends (before after : Chart) : Prop where
  live : ∀ handle, before.Live handle → after.Live handle
  shared : ∀ handle, before.Shared handle → after.Shared handle
  layouts : ∀ handle, before.Live handle → after.layouts handle = before.layouts handle
  grows : before.shapes.Grows after.shapes

/-- As `Extends`, but one shape may have got another layout, unless it was open to sharing. -/
structure Edits (before after : Chart) (own : Handle) : Prop where
  live : ∀ handle, before.Live handle → after.Live handle
  shared : ∀ handle, before.Shared handle → after.Shared handle
  layouts : ∀ handle, before.Live handle → (handle = own → before.Shared handle) →
    after.layouts handle = before.layouts handle

theorem Extends.refl (chart : Chart) : Extends chart chart :=
  ⟨fun _ => id, fun _ => id, fun _ _ => rfl, .refl chart.shapes⟩

theorem Extends.edits (extension : Extends before after) (own : Handle) : Edits before after own :=
  ⟨extension.live, extension.shared, fun handle live _ => extension.layouts handle live⟩

theorem Edits.trans (first : Edits before between own) (second : Edits between after own) :
    Edits before after own where
  live := fun handle live => second.live handle (first.live handle live)
  shared := fun handle shared => second.shared handle (first.shared handle shared)
  layouts := fun handle live spared =>
    (second.layouts handle (first.live handle live) fun same =>
      first.shared handle (spared same)).trans (first.layouts handle live spared)

/-- One live shape shows in the later chart what it shows in the earlier one. -/
structure Spares (before after : Chart) (handle : Handle) : Prop where
  live : after.Live handle
  layout : after.layouts handle = before.layouts handle

theorem Extends.spares (extension : Extends before after) (live : before.Live handle) :
    Spares before after handle :=
  ⟨extension.live handle live, extension.layouts handle live⟩

theorem Edits.spares (edits : Edits before after own) (live : before.Live handle)
    (spared : handle = own → before.Shared handle) : Spares before after handle :=
  ⟨edits.live handle live, edits.layouts handle live spared⟩

/-! ### Single steps -/

theorem fetch_ok (found : chart.get? handle = some shape) :
    Shapes.fetch handle chart.shapes = .ok shape chart.shapes := by
  unfold Shapes.fetch
  rw [Action.bind_ok (Action.get_apply _)]
  change chart.shapes.arena.get? handle = some shape at found
  rw [found]
  rfl

theorem replace_ok (found : chart.get? handle = some shape)
    (steady : shape.isUnique = false → Shapes.Steady shape cell (chart.layouts handle) layout)
    (placed : Shapes.Placed chart.shapes chart.layouts cell layout) :
    ∃ after : Chart, Shapes.replace handle cell chart.shapes = .ok () after.shapes ∧
      after.layouts = Function.update chart.layouts handle layout ∧
      (∀ other, after.get? other = if other = handle then some cell else chart.get? other) ∧
      Edits chart after handle := by
  have live := live_of_get? found
  have same : ∀ other, (chart.shapes.arena.set handle cell).get? other =
      if other = handle then some cell else chart.get? other := Arena.get?_set_live live cell
  refine ⟨⟨_, _, chart.charted.set found steady placed⟩, rfl, rfl, same, ?_, ?_, ?_⟩
  · intro other present
    exact (Arena.contains_set ..).trans present
  · rintro other ⟨present, presentFound, shared⟩
    by_cases here : other = handle
    · subst here
      rw [found] at presentFound
      cases presentFound
      exact ⟨cell, (same other).trans (if_pos rfl), (steady shared).shared⟩
    · exact ⟨present, ((same other).trans (if_neg here)).trans presentFound, shared⟩
  · intro other present spared
    by_cases here : other = handle
    · subst here
      have shared := (shared_iff found).mp (spared rfl)
      exact (Function.update_self ..).trans (steady shared).layout
    · exact Function.update_of_ne here ..

theorem issued_of_replace {shapes later : Shapes}
    (ran : Shapes.replace handle cell shapes = .ok () later) : later.issued = shapes.issued := by
  cases ran
  rfl

theorem allocate_ok (shapeOf : Nat → Shape)
    (serial : (shapeOf chart.shapes.issued).serial = chart.shapes.issued)
    (placed : Shapes.Placed { chart.shapes with issued := chart.shapes.issued + 1 } chart.layouts
      (shapeOf chart.shapes.issued) layout) :
    ∃ (own : Handle) (after : Chart),
      Shapes.allocate shapeOf chart.shapes = .ok own after.shapes ∧ ¬chart.Live own ∧
      after.layouts own = layout ∧
      (∀ other, after.get? other =
        if other = own then some (shapeOf chart.shapes.issued) else chart.get? other) ∧
      Extends chart after := by
  have sound := chart.charted.sound
  have fresh := Arena.get?_alloc_fresh sound (shapeOf chart.shapes.issued)
  have absent : ¬chart.Live (chart.shapes.arena.alloc (shapeOf chart.shapes.issued)).1 :=
    Arena.get?_eq_none_iff.mp fresh
  have same := Arena.get?_alloc sound (shapeOf chart.shapes.issued)
  refine ⟨_, ⟨_, _, (chart.charted.issue).alloc placed⟩, rfl, absent, Function.update_self ..,
    same, ?_, ?_, ?_, grows_of_fresh rfl same rfl serial fun present found => ?_⟩
  · intro other present
    exact (Arena.contains_alloc sound ..).mpr (Or.inr present)
  · rintro other ⟨present, found, shared⟩
    have different : other ≠ (chart.shapes.arena.alloc (shapeOf chart.shapes.issued)).1 := by
      intro equal
      rw [get?, equal, fresh] at found
      cases found
    exact ⟨present, ((same other).trans (if_neg different)).trans found, shared⟩
  · intro other present
    have different : other ≠ (chart.shapes.arena.alloc (shapeOf chart.shapes.issued)).1 :=
      fun equal => absent (equal ▸ present)
    exact Function.update_of_ne different ..
  · rw [get?, fresh] at found
    cases found

/-! ### Looking up -/

/-- Nothing that a chart shows has changed. -/
structure Agrees (before after : Chart) : Prop where
  live : ∀ handle, after.Live handle ↔ before.Live handle
  shared : ∀ handle, after.Shared handle ↔ before.Shared handle
  layouts : after.layouts = before.layouts
  grows : before.shapes.Grows after.shapes

theorem Agrees.refl (chart : Chart) : Agrees chart chart :=
  ⟨fun _ => Iff.rfl, fun _ => Iff.rfl, rfl, .refl chart.shapes⟩

theorem Agrees.extends (agrees : Agrees before after) : Extends before after where
  live := fun handle live => (agrees.live handle).mpr live
  shared := fun handle shared => (agrees.shared handle).mpr shared
  layouts := fun handle _ => congrFun agrees.layouts handle
  grows := agrees.grows

theorem materialize_built {table : Table} (found : chart.get? handle = some shape)
    (built : shape.table = some table) :
    Shapes.materialize handle chart.shapes = .ok () chart.shapes := by
  unfold Shapes.materialize
  rw [Action.bind_ok (fetch_ok found)]
  simp only [built]
  rfl

theorem materialize_ok (found : chart.get? handle = some shape) :
    ∃ (after : Chart) (cell : Shape),
      Shapes.materialize handle chart.shapes = .ok () after.shapes ∧ Agrees chart after ∧
      after.get? handle = some cell ∧ cell.table = some (chart.layouts handle).table ∧
      cell.isUnique = shape.isUnique ∧ cell.sharing = shape.sharing := by
  have placed := placed found
  cases built : shape.table with
  | some table =>
    refine ⟨chart, shape, materialize_built found built, Agrees.refl chart, found, ?_, rfl, rfl⟩
    exact placed.fits.table_eq built
  | none =>
    have shared : shape.isUnique = false := by
      cases unique : shape.isUnique with
      | false => rfl
      | true =>
        rw [(placed.fits.unique_table unique).1] at built
        cases built
    let cell := { shape with table := some (chart.layouts handle).table, previous := none }
    have steady : Shapes.Steady shape cell (chart.layouts handle) (chart.layouts handle) :=
      ⟨shared, rfl, rfl, rfl⟩
    have place : Shapes.Placed chart.shapes chart.layouts cell (chart.layouts handle) :=
      .of_table placed.issued placed.fits.sound placed.fits.freed rfl rfl placed.children
    obtain ⟨after, ran, layouts, cells, edits⟩ :=
      replace_ok found (fun _ => steady) place
    have grows := grows_of_edit found (issued_of_replace ran).ge cells layouts (fun _ => steady) rfl
      (fun _ _ => id) (fun _ _ => id)
    rw [Function.update_eq_self] at layouts
    refine ⟨after, cell, ?_, ⟨?_, ?_, layouts, grows⟩, (cells handle).trans (if_pos rfl), rfl, rfl,
      rfl⟩
    · unfold Shapes.materialize
      rw [Action.bind_ok (fetch_ok found)]
      simp only [built]
      rw [Action.bind_ok (fullTable_ok (live_of_get? found))]
      exact ran
    · intro other
      rw [live_iff, live_iff, cells other]
      by_cases same : other = handle
      · rw [if_pos same, same, found]
        exact ⟨fun _ => ⟨_, rfl⟩, fun _ => ⟨_, rfl⟩⟩
      · rw [if_neg same]
    · intro other
      unfold Shared
      rw [cells other]
      by_cases same : other = handle
      · rw [if_pos same, same, found]
        exact ⟨fun _ => ⟨_, rfl, shared⟩, fun _ => ⟨_, rfl, shared⟩⟩
      · rw [if_neg same]

theorem lookup_ok (live : chart.Live handle) (key : Key) :
    ∃ after : Chart, Agrees chart after ∧
      Shapes.lookup handle key chart.shapes =
        .ok ((chart.layouts handle).offset? key) after.shapes := by
  obtain ⟨shape, found⟩ := live_iff.mp live
  have placed := placed found
  cases built : shape.table with
  | some table =>
    refine ⟨chart, Agrees.refl chart, ?_⟩
    unfold Shapes.lookup
    rw [Action.bind_ok (fetch_ok found)]
    simp only [built, (placed.fits.table table built).1]
    rfl
  | none =>
    cases linked : shape.previous with
    | none =>
      obtain ⟨added, empty⟩ := placed.root built linked
      refine ⟨chart, Agrees.refl chart, ?_⟩
      unfold Shapes.lookup
      rw [Action.bind_ok (fetch_ok found)]
      simp only [built, linked, Shapes.addedOffset, added, empty]
      rfl
    | some previous =>
      obtain ⟨parent, name, parentFound, _, _, extension⟩ := placed.previous previous linked
      have parentSound := sound (live_of_get? parentFound)
      have offset := Layout.offset?_add parentSound extension.absent key
      rw [← extension.layout] at offset
      by_cases same : name = key
      · refine ⟨chart, Agrees.refl chart, ?_⟩
        unfold Shapes.lookup
        rw [Action.bind_ok (fetch_ok found), offset, if_pos same.symm]
        simp only [built, linked, Shapes.addedOffset, extension.added, if_pos same]
        rfl
      · obtain ⟨after, cell, ran, agrees, cellFound, table, _, _⟩ := materialize_ok found
        refine ⟨after, agrees, ?_⟩
        unfold Shapes.lookup
        rw [Action.bind_ok (fetch_ok found)]
        simp only [built, linked, Shapes.addedOffset, extension.added, if_neg same]
        rw [Action.bind_ok ran, Action.bind_ok (fetch_ok cellFound), table]
        rfl

theorem names_ok (live : chart.Live handle) :
    ∃ after : Chart, Agrees chart after ∧
      Shapes.names handle chart.shapes = .ok (chart.layouts handle).table after.shapes := by
  obtain ⟨shape, found⟩ := live_iff.mp live
  obtain ⟨after, cell, ran, agrees, cellFound, table, _, _⟩ := materialize_ok found
  refine ⟨after, agrees, ?_⟩
  unfold Shapes.names
  rw [Action.bind_ok ran, Action.bind_ok (fetch_ok cellFound), table]
  rfl

theorem size_le_reserve (slotCapacity size : Nat) : size ≤ Shapes.reserve slotCapacity size := by
  unfold Shapes.reserve
  by_cases small : size ≤ slotCapacity
  · rw [if_pos small]
    exact small
  · rw [if_neg small, Nat.one_shiftLeft]
    have bound := Nat.lt_log2_self (n := size - 1)
    omega

theorem capacity_ok (live : chart.Live handle) :
    ∃ capacity, Shapes.capacity handle chart.shapes = .ok capacity chart.shapes ∧
      (chart.layouts handle).size ≤ capacity := by
  obtain ⟨shape, found⟩ := live_iff.mp live
  refine ⟨Shapes.reserve chart.shapes.slotCapacity shape.size, ?_, ?_⟩
  · unfold Shapes.capacity
    rw [Action.bind_ok (fetch_ok found), Action.bind_ok (Action.get_apply _)]
    rfl
  · rw [← (fits found).size_eq]
    exact size_le_reserve ..

/-! ### Moving from shape to shape -/

/-- An object may leave one shape for another: unless it keeps the shape, the other one is open to
sharing or new. -/
structure Moves (before after : Chart) (own next : Handle) : Prop extends Edits before after own where
  grows : before.shapes.Grows after.shapes
  reached : after.Live next
  owner : next = own ∨ after.Shared next ∨ ¬before.Live next

theorem Extends.moves (extension : Extends before after) (live : before.Live own) :
    Moves before after own own where
  toEdits := extension.edits own
  grows := extension.grows
  reached := extension.live own live
  owner := Or.inl rfl

theorem Moves.trans {next last : Handle} (first : Moves before between own next)
    (second : Moves between after next last) : Moves before after own last where
  live := fun handle live => second.live handle (first.live handle live)
  shared := fun handle shared => second.shared handle (first.shared handle shared)
  layouts := by
    intro handle live spared
    rw [← first.layouts handle live spared]
    refine second.layouts handle (first.live handle live) fun same => ?_
    rcases first.owner with kept | shared | fresh
    · exact first.shared handle (spared (same.trans kept))
    · rw [same]
      exact shared
    · exact absurd (same ▸ live) fresh
  grows := first.grows.trans second.grows
  reached := second.reached
  owner := by
    rcases second.owner with kept | shared | fresh
    · rw [kept]
      exact first.owner.imp_right (Or.imp_left (second.shared next))
    · exact Or.inr (Or.inl shared)
    · exact Or.inr (Or.inr fun live => fresh (first.live last live))

theorem extendUnique_ok (found : chart.get? handle = some shape) (unique : shape.isUnique = true)
    (absent : (chart.layouts handle).offset? key = none) :
    ∃ after : Chart, Shapes.extendUnique handle key chart.shapes =
        .ok (handle, (chart.layouts handle).next) after.shapes ∧
      after.layouts handle = (chart.layouts handle).add key ∧ Moves chart after handle handle := by
  have placed := placed found
  obtain ⟨table, cut⟩ := placed.fits.unique_table unique
  let cell := { shape with
    freed := shape.freed.tail
    table := shape.table.map fun table : Table => table.insert key shape.nextOffset }
  have built : cell.table = some ((chart.layouts handle).add key).table := by
    simp only [cell, table, placed.fits.nextOffset_eq]
    rfl
  have place : Shapes.Placed chart.shapes chart.layouts cell ((chart.layouts handle).add key) :=
    .of_table placed.issued (Layout.sound_add placed.fits.sound absent)
      (congrArg List.tail placed.fits.freed) built cut (Shapes.follows_of_unique unique)
  have steady : shape.isUnique = false →
      Shapes.Steady shape cell (chart.layouts handle) ((chart.layouts handle).add key) := by
    intro shared
    rw [unique] at shared
    cases shared
  obtain ⟨after, ran, layouts, cells, edits⟩ := replace_ok found steady place
  have names : ∀ other offset, (chart.layouts handle).offset? other = some offset →
      ((chart.layouts handle).add key).offset? other = some offset := by
    intro other offset placed
    rw [Layout.offset?_add (sound (live_of_get? found)) absent, if_neg]
    · exact placed
    · rintro rfl
      rw [absent] at placed
      cases placed
  have grows := grows_of_edit found (issued_of_replace ran).ge cells layouts steady rfl names
    (fun _ _ => id)
  refine ⟨after, ?_, ?_, ⟨edits, grows, ?_, Or.inl rfl⟩⟩
  · unfold Shapes.extendUnique
    rw [Action.bind_ok (materialize_built found table), Action.bind_ok (fetch_ok found),
      Action.bind_ok ran, placed.fits.nextOffset_eq]
    rfl
  · rw [layouts, Function.update_self]
  · exact live_iff.mpr ⟨cell, (cells handle).trans (if_pos rfl)⟩

/-- A child stands for its parent's layout with one more name. -/
theorem placed_child (found : chart.get? handle = some shape) (opened : shape.isUnique = false)
    (absent : (chart.layouts handle).offset? key = none) :
    Shapes.Placed { chart.shapes with issued := chart.shapes.issued + 1 } chart.layouts
      (shape.child handle key chart.shapes.issued) ((chart.layouts handle).add key) ∧
    (shape.child handle key chart.shapes.issued).Extends ((chart.layouts handle).add key)
      (chart.layouts handle) key := by
  have placed := placed found
  have added : (shape.child handle key chart.shapes.issued).added =
      some (key, (chart.layouts handle).next) := by
    rw [Shape.child, placed.fits.nextOffset_eq]
  have extension : (shape.child handle key chart.shapes.issued).Extends
      ((chart.layouts handle).add key) (chart.layouts handle) key := ⟨absent, added, rfl⟩
  refine ⟨?_, extension⟩
  exact {
    issued := Nat.lt_succ_self _
    fits :=
      { sound := Layout.sound_add placed.fits.sound absent
        freed := congrArg List.tail placed.fits.freed
        table := fun _ built => absurd built.symm (Option.some_ne_none _)
        reserved := fun _ => by
          rw [Layout.size_add absent, ← placed.fits.size_eq, ← placed.fits.freed]
          rfl
        unique := fun unique => absurd unique Bool.false_ne_true }
    root := fun _ cut => absurd cut (Option.some_ne_none _)
    previous := by
      intro previous linked
      rw [← Option.some.inj linked]
      exact ⟨shape, key, found, opened, placed.issued, extension⟩
    children := Shapes.follows_of_childless rfl }

theorem newChild_ok {children : Transitions} (found : chart.get? handle = some shape)
    (shared : shape.sharing = .shared children) (unknown : children.find? key = none)
    (absent : (chart.layouts handle).offset? key = none) :
    ∃ (own : Handle) (after : Chart), Shapes.newChild handle shape children key chart.shapes =
        .ok (own, (chart.layouts handle).next) after.shapes ∧
      after.layouts own = (chart.layouts handle).add key ∧ Moves chart after handle own ∧
      after.shapes.child? handle key = some own := by
  have placed := placed found
  have opened : shape.isUnique = false := by rw [Shape.isUnique, shared]
  obtain ⟨place, extension⟩ := placed_child found opened absent
  obtain ⟨own, between, allocated, fresh, layout, cells, grown⟩ :=
    allocate_ok (shape.child handle key) rfl place
  have live := live_of_get? found
  have different : handle ≠ own := fun same => fresh (same ▸ live)
  have kept := grown.layouts handle live
  have foundBetween : between.get? handle = some shape :=
    ((cells handle).trans (if_neg different)).trans found
  have childFound : between.get? own = some (shape.child handle key chart.shapes.issued) :=
    (cells own).trans (if_pos rfl)
  have placedBetween := Chart.placed foundBetween
  let cell := { shape with sharing := .shared (children.insert key own) }
  have steady : shape.isUnique = false →
      Shapes.Steady shape cell (between.layouts handle) (between.layouts handle) :=
    fun _ => ⟨rfl, rfl, rfl, rfl⟩
  have follows : Shapes.Follows between.shapes between.layouts (between.layouts handle) key own := by
    refine ⟨_, childFound, rfl, ?_⟩
    rw [kept, layout]
    exact extension
  have placeBetween : Shapes.Placed between.shapes between.layouts cell (between.layouts handle) :=
    placedBetween.addChild shared follows
  obtain ⟨after, ran, layouts, cellsAfter, edits⟩ := replace_ok foundBetween steady placeBetween
  have listed : ∀ other child, shape.child? other = some child → cell.child? other = some child := by
    intro other child led
    have known : children.find? other = some child := by simpa only [Shape.child?, shared] using led
    have different : other ≠ key := by
      rintro rfl
      cases unknown.symm.trans known
    show (children.insert key own).find? other = some child
    rw [Transitions.find?_insert, if_neg different, known]
  have grows := grown.grows.trans
    (grows_of_edit foundBetween (issued_of_replace ran).ge cellsAfter layouts steady rfl
      (fun _ _ => id) listed)
  rw [Function.update_eq_self] at layouts
  have reached : after.get? own = some (shape.child handle key chart.shapes.issued) :=
    ((cellsAfter own).trans (if_neg (Ne.symm different))).trans childFound
  refine ⟨own, after, ?_, ?_, ⟨(grown.edits handle).trans edits, grows, live_of_get? reached, ?_⟩,
    ?_⟩
  · unfold Shapes.newChild
    rw [Action.bind_ok allocated, Action.bind_ok ran, placed.fits.nextOffset_eq]
    rfl
  · rw [layouts, layout]
  · exact Or.inr (Or.inr fresh)
  · rw [child?_eq ((cellsAfter handle).trans (if_pos rfl))]
    show (children.insert key own).find? key = some own
    rw [Transitions.find?_insert, if_pos rfl]

/-- A name that was added before leads to the child that was made for it. -/
theorem add_known {child : Handle} (led : chart.shapes.child? handle key = some child) :
    Shapes.add handle key chart.shapes =
      .ok (child, (chart.layouts handle).next) chart.shapes := by
  obtain ⟨shape, found, known⟩ := Option.bind_eq_some_iff.mp led
  obtain ⟨cell, childFound, _, extension⟩ := follows_of_child? led
  unfold Shapes.add
  rw [Action.bind_ok (fetch_ok found)]
  cases sharing : shape.sharing with
  | unique =>
    rw [Shape.child?, sharing] at known
    cases known
  | shared children =>
    have listed : children.find? key = some child := by simpa only [Shape.child?, sharing] using known
    simp only [listed]
    rw [Action.bind_ok (fetch_ok childFound), extension.added]
    rfl

/-- An added name gets the offset that the layout has for it, and no shape is lost. From a shape that
is open to sharing, the name leads to the same shape again. -/
theorem add_ok (live : chart.Live handle) (absent : (chart.layouts handle).offset? key = none) :
    ∃ (own : Handle) (after : Chart), Shapes.add handle key chart.shapes =
        .ok (own, (chart.layouts handle).next) after.shapes ∧
      after.layouts own = (chart.layouts handle).add key ∧ Moves chart after handle own ∧
      (chart.Shared handle → after.shapes.child? handle key = some own) := by
  obtain ⟨shape, found⟩ := live_iff.mp live
  cases led : chart.shapes.child? handle key with
  | some child =>
    obtain ⟨cell, childFound, shared, extension⟩ := follows_of_child? led
    refine ⟨child, chart, add_known led, extension.layout, ?_, fun _ => led⟩
    refine ⟨(Extends.refl chart).edits handle, .refl chart.shapes, live_of_get? childFound, ?_⟩
    exact Or.inr (Or.inl ⟨cell, childFound, shared⟩)
  | none =>
    rw [child?_eq found] at led
    unfold Shapes.add
    rw [Action.bind_ok (fetch_ok found)]
    cases sharing : shape.sharing with
    | unique =>
      have unique : shape.isUnique = true := by rw [Shape.isUnique, sharing]
      obtain ⟨after, ran, layout, moves⟩ := extendUnique_ok found unique absent
      refine ⟨handle, after, ran, layout, moves, fun shared => ?_⟩
      rw [shared_iff found, unique] at shared
      cases shared
    | shared children =>
      have unknown : children.find? key = none := by simpa only [Shape.child?, sharing] using led
      obtain ⟨own, after, ran, layout, moves, led⟩ := newChild_ok found sharing unknown absent
      simp only [unknown]
      exact ⟨own, after, ran, layout, moves, fun _ => led⟩

theorem issue_ok (chart : Chart) :
    ∃ after : Chart, Shapes.issue chart.shapes = .ok chart.shapes.issued after.shapes ∧
      after.layouts = chart.layouts ∧ (∀ other, after.get? other = chart.get? other) ∧
      after.shapes.issued = chart.shapes.issued + 1 :=
  ⟨⟨_, chart.layouts, chart.charted.issue⟩, rfl, rfl, fun _ => rfl, rfl⟩

theorem extends_of_get? (found : before.get? handle = some shape)
    (same : ∀ other, after.get? other = before.get? other)
    (layouts : after.layouts = before.layouts) (issued : before.shapes.issued ≤ after.shapes.issued) :
    Extends before after where
  live := fun handle live => by
    rw [live_iff, same]
    exact live_iff.mp live
  shared := fun handle shared => by
    unfold Shared
    rw [same]
    exact shared
  layouts := fun handle _ => congrFun layouts handle
  grows := by
    refine grows_of_edit found issued (fun other => ?_)
      (layouts.trans (Function.update_eq_self handle before.layouts).symm)
      (fun shared => ⟨shared, rfl, rfl, rfl⟩) rfl (fun _ _ => id) fun _ _ => id
    rw [same]
    by_cases here : other = handle
    · rw [if_pos here, here, found]
    · rw [if_neg here]

theorem shrinkUnique_ok (found : chart.get? handle = some shape) (unique : shape.isUnique = true)
    (key : Key) :
    ∃ after : Chart, Shapes.shrinkUnique handle shape key chart.shapes = .ok handle after.shapes ∧
      after.layouts handle = (chart.layouts handle).remove key ∧ Moves chart after handle handle := by
  obtain ⟨between, issued, layoutsBetween, same, next⟩ := issue_ok chart
  have later : chart.shapes.issued < between.shapes.issued := by omega
  have grown := extends_of_get? found same layoutsBetween later.le
  have foundBetween : between.get? handle = some shape := (same handle).trans found
  have placed := placed foundBetween
  have kept : between.layouts handle = chart.layouts handle := congrFun layoutsBetween handle
  obtain ⟨table, cut⟩ := placed.fits.unique_table unique
  unfold Shapes.shrinkUnique
  rw [Action.bind_ok issued]
  simp only [table, Option.getD_some]
  cases present : (chart.layouts handle).offset? key with
  | none =>
    have missing : Table.find? (between.layouts handle).table key = none := by
      rw [kept]
      exact present
    refine ⟨between, ?_, ?_, grown.moves (live_of_get? found)⟩
    · simp only [missing]
      rfl
    · rw [Layout.remove_of_absent present, kept]
  | some offset =>
    have sure : Table.find? (between.layouts handle).table key = some offset := by
      rw [kept]
      exact present
    let cell := { shape with
      serial := chart.shapes.issued
      table := some ((between.layouts handle).table.erase key)
      freed := offset :: shape.freed }
    have layout : (between.layouts handle).remove key =
        { table := (between.layouts handle).table.erase key
          freed := offset :: (between.layouts handle).freed } := Layout.remove_of_found sure
    have freed : cell.freed = ((between.layouts handle).remove key).freed := by
      rw [layout]
      exact congrArg (List.cons offset) placed.fits.freed
    have built : cell.table = some ((between.layouts handle).remove key).table := by rw [layout]
    have place : Shapes.Placed between.shapes between.layouts cell
        ((between.layouts handle).remove key) :=
      .of_table later (Layout.sound_remove placed.fits.sound key) freed built cut
        (Shapes.follows_of_unique unique)
    have steady : shape.isUnique = false → Shapes.Steady shape cell (between.layouts handle)
        ((between.layouts handle).remove key) := by
      intro shared
      rw [unique] at shared
      cases shared
    obtain ⟨after, ran, layouts, cells, edits⟩ := replace_ok foundBetween steady place
    -- the cell that is replaced lives on under the identity that was spent for it
    have grows : chart.shapes.Grows after.shapes := by
      have cellsAfter : ∀ other, after.get? other = if other = handle then some cell else
          chart.get? other := fun other => by rw [cells, same]
      refine grows_of_fresh ((issued_of_replace ran).trans next) cellsAfter
        (layoutsBetween ▸ layouts) rfl fun present foundHere => ?_
      cases found.symm.trans foundHere
      exact unique
    refine ⟨after, ?_, ?_, ⟨(grown.edits handle).trans edits, grows, ?_, Or.inl rfl⟩⟩
    · simp only [sure]
      rw [Action.bind_ok ran]
      rfl
    · rw [layouts, Function.update_self, kept]
    · exact live_iff.mpr ⟨cell, (cells handle).trans (if_pos rfl)⟩

/-- A removed name frees its offset; without the name the layout stays as it is. -/
theorem remove_ok (live : chart.Live handle) (key : Key) :
    ∃ (own : Handle) (after : Chart), Shapes.remove handle key chart.shapes = .ok own after.shapes ∧
      after.layouts own = (chart.layouts handle).remove key ∧ Moves chart after handle own := by
  obtain ⟨shape, found⟩ := live_iff.mp live
  obtain ⟨between, cell, ran, agrees, cellFound, table, unique, sharing⟩ := materialize_ok found
  have kept : between.layouts handle = chart.layouts handle := congrFun agrees.layouts handle
  have placed := placed cellFound
  have liveBetween := live_of_get? cellFound
  unfold Shapes.remove
  rw [Action.bind_ok ran, Action.bind_ok (fetch_ok cellFound)]
  cases known : cell.sharing with
  | unique =>
    have own : cell.isUnique = true := by rw [Shape.isUnique, known]
    obtain ⟨after, shrunk, layout, moves⟩ := shrinkUnique_ok cellFound own key
    rw [kept] at layout
    exact ⟨handle, after, shrunk, layout, (agrees.extends.moves live).trans moves⟩
  | shared children =>
    simp only [table, Option.getD_some]
    cases present : (chart.layouts handle).offset? key with
    | none =>
      have missing : Table.find? (chart.layouts handle).table key = none := present
      refine ⟨handle, between, ?_, ?_, agrees.extends.moves live⟩
      · simp only [missing]
        rfl
      · rw [Layout.remove_of_absent present, kept]
    | some offset =>
      have sure : Table.find? (chart.layouts handle).table key = some offset := present
      have layout := Layout.remove_of_found present
      let fork := cell.fork ((chart.layouts handle).table.erase key) offset between.shapes.issued
      have freed : fork.freed = ((chart.layouts handle).remove key).freed := by
        rw [layout, ← kept]
        exact congrArg (List.cons offset) placed.fits.freed
      have built : fork.table = some ((chart.layouts handle).remove key).table := by rw [layout]; rfl
      have place : Shapes.Placed { between.shapes with issued := between.shapes.issued + 1 }
          between.layouts fork ((chart.layouts handle).remove key) :=
        .of_table (Nat.lt_succ_self _) (Layout.sound_remove (sound live) key) freed built rfl
          (Shapes.follows_of_childless rfl)
      obtain ⟨own, after, allocated, fresh, ownLayout, cells, grown⟩ :=
        allocate_ok (cell.fork ((chart.layouts handle).table.erase key) offset) rfl place
      have reached : after.Live own := live_iff.mpr ⟨_, (cells own).trans (if_pos rfl)⟩
      refine ⟨own, after, ?_, ownLayout, ?_⟩
      · simp only [sure]
        exact allocated
      · exact (agrees.extends.moves live).trans ⟨grown.edits handle, grown.grows, reached,
          Or.inr (Or.inr fresh)⟩

theorem share_ok (live : chart.Live handle) :
    ∃ after : Chart, Shapes.share handle chart.shapes = .ok () after.shapes ∧
      after.layouts = chart.layouts ∧ Extends chart after ∧ after.Shared handle := by
  obtain ⟨shape, found⟩ := live_iff.mp live
  have placed := placed found
  unfold Shapes.share
  rw [Action.bind_ok (fetch_ok found)]
  cases sharing : shape.sharing with
  | shared children =>
    have shared : shape.isUnique = false := by rw [Shape.isUnique, sharing]
    exact ⟨chart, rfl, rfl, Extends.refl chart, ⟨shape, found, shared⟩⟩
  | unique =>
    have unique : shape.isUnique = true := by rw [Shape.isUnique, sharing]
    obtain ⟨table, cut⟩ := placed.fits.unique_table unique
    let cell := { shape with sharing := .shared .none }
    have place : Shapes.Placed chart.shapes chart.layouts cell (chart.layouts handle) :=
      .of_table placed.issued placed.fits.sound placed.fits.freed table cut
        (Shapes.follows_of_childless rfl)
    have steady : Shapes.Steady shape cell (chart.layouts handle) (chart.layouts handle) :=
      ⟨rfl, rfl, rfl, rfl⟩
    obtain ⟨after, ran, layouts, cells, edits⟩ := replace_ok found (fun _ => steady) place
    have childless : ∀ key child, shape.child? key = some child → cell.child? key = some child := by
      intro key child led
      rw [Shape.child?_of_unique unique] at led
      cases led
    have grows := grows_of_edit found (issued_of_replace ran).ge cells layouts (fun _ => steady) rfl
      (fun _ _ => id) childless
    rw [Function.update_eq_self] at layouts
    refine ⟨after, ran, layouts, ⟨edits.live, edits.shared, fun other _ => ?_, grows⟩, ?_⟩
    · rw [layouts]
    · exact ⟨cell, (cells handle).trans (if_pos rfl), rfl⟩

theorem newRoot_ok (chart : Chart) :
    ∃ (own : Handle) (after : Chart), Shapes.newRoot chart.shapes = .ok own after.shapes ∧
      ¬chart.Live own ∧ after.Live own ∧ after.layouts own = {} ∧ Extends chart after := by
  obtain ⟨own, after, allocated, fresh, layout, cells, grown⟩ :=
    allocate_ok Shape.root rfl (Shapes.placed_root _ chart.layouts (Nat.lt_succ_self _))
  exact ⟨own, after, allocated, fresh, live_iff.mpr ⟨_, (cells own).trans (if_pos rfl)⟩, layout,
    grown⟩

theorem newUnique_ok (chart : Chart) :
    ∃ (own : Handle) (after : Chart), Shapes.newUnique chart.shapes = .ok own after.shapes ∧
      ¬chart.Live own ∧ after.Live own ∧ after.layouts own = {} ∧ Extends chart after := by
  have place : Shapes.Placed { chart.shapes with issued := chart.shapes.issued + 1 } chart.layouts
      (Shape.emptyUnique chart.shapes.issued) {} :=
    .of_table (Nat.lt_succ_self _) Layout.sound_empty rfl rfl rfl (Shapes.follows_of_unique rfl)
  obtain ⟨own, after, allocated, fresh, layout, cells, grown⟩ :=
    allocate_ok Shape.emptyUnique rfl place
  exact ⟨own, after, allocated, fresh, live_iff.mpr ⟨_, (cells own).trans (if_pos rfl)⟩, layout,
    grown⟩

theorem newUniqueFrom_ok (live : chart.Live handle) :
    ∃ (own : Handle) (after : Chart),
      Shapes.newUniqueFrom handle chart.shapes = .ok own after.shapes ∧ ¬chart.Live own ∧
      after.Live own ∧ after.layouts own = chart.layouts handle ∧ Extends chart after := by
  obtain ⟨shape, found⟩ := live_iff.mp live
  have placed := placed found
  have place : Shapes.Placed { chart.shapes with issued := chart.shapes.issued + 1 } chart.layouts
      (shape.copy (chart.layouts handle).table chart.shapes.issued) (chart.layouts handle) :=
    .of_table (Nat.lt_succ_self _) placed.fits.sound placed.fits.freed rfl rfl
      (Shapes.follows_of_unique rfl)
  obtain ⟨own, after, allocated, fresh, layout, cells, grown⟩ := allocate_ok _ rfl place
  refine ⟨own, after, ?_, fresh, live_iff.mpr ⟨_, (cells own).trans (if_pos rfl)⟩, layout, grown⟩
  unfold Shapes.newUniqueFrom
  rw [Action.bind_ok (fullTable_ok live), Action.bind_ok (fetch_ok found)]
  exact allocated

end Chart

end HiddenClass
