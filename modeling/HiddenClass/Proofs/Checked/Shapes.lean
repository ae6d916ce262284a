import HiddenClass.Proofs.Checked.Plain
import HiddenClass.Proofs.Shape.Graph

/-!
What it takes for a checked operation to do what the plain one does: shapes that are open to sharing
have no more slots than identities were issued before theirs, and fewer identities are issued than
there are words. The operations keep the first and only add to the second.
-/

namespace HiddenClass

namespace Shapes

/-- A shape that is open to sharing has no more slots than identities were issued before it. -/
def Slim (shapes : Shapes) : Prop :=
  ∀ handle shape, shapes.arena.get? handle = some shape → shape.isUnique = false →
    shape.size ≤ shape.serial

variable {shapes : Shapes} {handle : Handle} {cell : Shape}

theorem Slim.set (slim : shapes.Slim) (handle : Handle)
    (small : cell.isUnique = false → cell.size ≤ cell.serial) :
    Slim { shapes with arena := shapes.arena.set handle cell } := by
  intro other present found shared
  rw [Arena.get?_set] at found
  by_cases same : other = handle ∧ shapes.arena.contains handle = true
  · rw [if_pos same] at found
    cases found
    exact small shared
  · rw [if_neg same] at found
    exact slim other present found shared

theorem Slim.alloc (slim : shapes.Slim) (sound : shapes.arena.Sound) (issued : Nat)
    (small : cell.isUnique = false → cell.size ≤ cell.serial) :
    Slim { shapes with arena := (shapes.arena.alloc cell).2, issued } := by
  intro other present found shared
  rw [Arena.get?_alloc sound] at found
  by_cases same : other = (shapes.arena.alloc cell).1
  · rw [if_pos same] at found
    cases found
    exact small shared
  · rw [if_neg same] at found
    exact slim other present found shared

end Shapes

theorem Chart.Agrees.slim {before after : Chart} (agrees : Chart.Agrees before after)
    (slim : before.shapes.Slim) : after.shapes.Slim := by
  intro handle cell found shared
  obtain ⟨shape, foundBefore, open_⟩ := (agrees.shared handle).mp ⟨cell, found, shared⟩
  obtain ⟨kept, foundAfter, steadfast⟩ := agrees.grows.steadfast handle shape foundBefore open_
  cases found.symm.trans foundAfter
  rw [steadfast.size, steadfast.serial]
  exact slim handle shape foundBefore open_

/-- Identities are only added to, and shapes stay slim. -/
structure Shapes.Counts (before after : Shapes) : Prop where
  issued : before.issued ≤ after.issued
  slim : before.Slim → after.Slim

theorem Shapes.Counts.refl (shapes : Shapes) : Counts shapes shapes := ⟨Nat.le_refl _, id⟩

theorem Shapes.Counts.trans {before between after : Shapes} (first : Counts before between)
    (second : Counts between after) : Counts before after :=
  ⟨first.issued.trans second.issued, fun slim => second.slim (first.slim slim)⟩

theorem Chart.Agrees.counts {before after : Chart} (agrees : Chart.Agrees before after) :
    Shapes.Counts before.shapes after.shapes :=
  ⟨agrees.grows.issued, agrees.slim⟩

/-! ### Passing the checks -/

namespace Action

variable {σ τ α β : Type} {counted raises : Bool} {shapes : σ → Shapes} {outer : τ → Shapes}
  {checked action : Action σ α} {checkedNext next : α → Action σ β} {state after : σ} {answer : α}
  {crash : Option Fault}

theorem increment_ok {n : Nat} (fits : n + 1 ≤ Config.wordMax) (state : σ) :
    increment crash n state = .ok (n + 1) state :=
  bind_ok (require_ok fits state) _

theorem subtract_ok {m n : Nat} (less : n ≤ m) (state : σ) :
    subtract crash m n state = .ok (m - n) state :=
  bind_ok (require_ok less state) _

/-- The action passes its checks. Where the sizes of shapes are checked too, it does so as long as the
shapes are slim and there are fewer identities than words at the end. -/
structure Passes (counted : Bool) (shapes : σ → Shapes) (checked action : Action σ α) (state : σ) :
    Prop where
  counts : counted = true → Shapes.Counts (shapes state) (shapes (action.final state))
  same : (counted = true → (shapes state).Slim ∧
    (shapes (action.final state)).issued ≤ Config.wordMax) → checked state = action state

theorem passes_of_counts (counts : Shapes.Counts (shapes state) (shapes (action.final state))) :
    Passes counted shapes action action state := ⟨fun _ => counts, fun _ => rfl⟩

theorem passes_of_shapes (kept : shapes (action.final state) = shapes state) :
    Passes counted shapes action action state :=
  passes_of_counts (kept ▸ Shapes.Counts.refl _)

theorem passes_pure (answer : α) : Passes counted shapes (pure answer) (pure answer) state :=
  passes_of_shapes rfl

theorem passes_throw (fault : Fault) :
    Passes counted shapes (throw fault : Action σ α) (throw fault) state :=
  passes_of_shapes rfl

theorem passes_refuse (reason : Rejection) :
    Passes counted shapes (refuse raises reason) (refuse raises reason) state := by
  cases raises
  · exact passes_pure _
  · exact passes_throw _

theorem passes_of_agrees {chart later : Chart} (agrees : Chart.Agrees chart later)
    (ran : action state = .ok answer after) (same : checked state = action state)
    (before : shapes state = chart.shapes) (reached : shapes after = later.shapes) :
    Passes counted shapes checked action state where
  counts := fun _ => by
    rw [final_ok ran, before, reached]
    exact agrees.counts
  same := fun _ => same

namespace Passes

theorem bind (first : Passes counted shapes checked action state)
    (second : ∀ answer after, action state = .ok answer after →
      Passes counted shapes (checkedNext answer) (next answer) after) :
    Passes counted shapes (checked >>= checkedNext) (action >>= next) state := by
  cases ran : action state with
  | error fault after =>
    have ended : (action >>= next) state = .error fault after := by rw [bind_apply, ran]
    have final : (action >>= next).final state = action.final state := by
      rw [final_error ended, final_error ran]
    refine ⟨final ▸ first.counts, fun start => ?_⟩
    rw [final] at start
    rw [ended, bind_apply, first.same start, ran]
  | ok answer after =>
    have rest := second answer after ran
    have reached := final_bind ran next
    have counts := first.counts
    have same := first.same
    rw [final_ok ran] at counts same
    refine ⟨fun on => ?_, fun start => ?_⟩
    · rw [reached]
      exact (counts on).trans (rest.counts on)
    · rw [reached] at start
      have began : checked state = .ok answer after :=
        (same fun on => ⟨(start on).1, (rest.counts on).issued.trans (start on).2⟩).trans ran
      rw [bind_ok began, bind_ok ran]
      exact rest.same fun on => ⟨(counts on).slim (start on).1, (start on).2⟩

/-- A step whose result is known. -/
theorem step (first : Passes counted shapes checked action state)
    (ran : action state = .ok answer after)
    (second : Passes counted shapes (checkedNext answer) (next answer) after) :
    Passes counted shapes (checked >>= checkedNext) (action >>= next) state := by
  apply first.bind
  intro reply later began
  cases ran.symm.trans began
  exact second

/-- A step without a check that changes nothing. -/
theorem skip (ran : action state = .ok answer state)
    (second : Passes counted shapes (checkedNext answer) (next answer) state) :
    Passes counted shapes (action >>= checkedNext) (action >>= next) state :=
  (passes_of_shapes (congrArg shapes (final_ok ran))).step ran second

theorem read {checkedNext next : σ → Action σ α}
    (rest : Passes counted shapes (checkedNext state) (next state) state) :
    Passes counted shapes (get >>= checkedNext) (get >>= next) state :=
  ⟨rest.counts, rest.same⟩

/-- A step that is taken for the sake of a condition only. -/
theorem aside {check : Action σ β} {checkedNext : β → Action σ α} {answer : β}
    (ran : check state = .ok answer state)
    (rest : Passes counted shapes (checkedNext answer) action state) :
    Passes counted shapes (check >>= checkedNext) action state :=
  ⟨rest.counts, fun start => (bind_ok ran _).trans (rest.same start)⟩

theorem look {checkedNext : σ → Action σ α}
    (rest : Passes counted shapes (checkedNext state) action state) :
    Passes counted shapes (get >>= checkedNext) action state :=
  rest.aside (get_apply state)

/-- A condition that is met. -/
theorem guard (rest : Passes counted shapes checked action state) {condition : Prop}
    [Decidable condition]
    (met : (counted = true → (shapes state).Slim ∧
      (shapes (action.final state)).issued ≤ Config.wordMax) → condition) :
    Passes counted shapes (require crash condition >>= fun _ => checked) action state where
  counts := rest.counts
  same := fun start => by
    rw [bind_ok (require_ok (met start) state)]
    exact rest.same start

theorem ite {condition : Prop} [Decidable condition] {checkedOther other : Action σ α}
    (yes : condition → Passes counted shapes checked action state)
    (no : ¬condition → Passes counted shapes checkedOther other state) :
    Passes counted shapes (if condition then checked else checkedOther)
      (if condition then action else other) state := by
  by_cases holds : condition
  · rw [if_pos holds, if_pos holds]
    exact yes holds
  · rw [if_neg holds, if_neg holds]
    exact no holds

theorem focus {whole : τ} {view : τ → σ} {update : τ → σ → τ}
    (inner : Passes counted shapes checked action (view whole))
    (front : outer whole = shapes (view whole))
    (back : ∀ part, outer (update whole part) = shapes part) :
    Passes counted outer (Action.focus view update checked) (Action.focus view update action)
      whole := by
  have final : (Action.focus view update action).final whole =
      update whole (action.final (view whole)) := by
    unfold Action.final Action.focus
    cases action (view whole) <;> rfl
  refine ⟨fun on => ?_, fun start => ?_⟩
  · rw [final, back, front]
    exact inner.counts on
  · rw [final, back, front] at start
    unfold Action.focus
    rw [inner.same start]

/-- An answer may be put in other words. -/
theorem map (inner : Passes counted shapes checked action state) (change : α → β) :
    Passes counted shapes (do return change (← checked)) (do return change (← action)) state :=
  inner.bind fun _ _ _ => passes_pure _

end Passes

/-- What is validated is changed by nothing. -/
theorem passes_validate (slot : Slot) (desc : Descriptor) :
    Passes counted shapes (slot.validateWith raises desc) (slot.validateWith raises desc)
      state := by
  rw [Slot.validateWith_eq]
  cases slot.validate desc with
  | accepted => exact passes_pure _
  | rejected reason => exact passes_refuse reason

end Action

open HiddenClass.Action (Passes)

/-! ### Shapes -/

theorem Arena.Sound.isReady {α : Type} {arena : Arena α} (sound : arena.Sound) :
    arena.isReady = true := by
  unfold Arena.isReady
  rw [Option.all_eq_true]
  intro index first
  obtain ⟨entry, present, _⟩ := (sound.empty index).mp (List.mem_of_mem_head? first)
  exact decide_eq_true (Array.getElem?_eq_some_iff.mp present).1

namespace Chart

variable {chart : Chart} {handle : Handle} {shape : Shape} {key : Key} {guards : Guards}

theorem serial_lt (found : chart.get? handle = some shape) : shape.serial < chart.shapes.issued :=
  (placed found).issued

/-- A new shape is slim if it has no more slots than identities were issued. -/
theorem passes_allocate (shapeOf : Nat → Shape)
    (serial : (shapeOf chart.shapes.issued).serial = chart.shapes.issued)
    (small : chart.shapes.Slim → (shapeOf chart.shapes.issued).isUnique = false →
      (shapeOf chart.shapes.issued).size ≤ chart.shapes.issued) :
    Passes guards.sizes id (Shapes.allocateWith guards shapeOf) (Shapes.allocate shapeOf)
      chart.shapes := by
  have sound := chart.charted.sound
  have rest : Passes guards.sizes id (Shapes.allocate shapeOf) (Shapes.allocate shapeOf)
      chart.shapes := by
    refine Action.passes_of_counts ⟨Nat.le_succ chart.shapes.issued, fun slim => ?_⟩
    exact slim.alloc sound _ fun shared => serial.symm ▸ small slim shared
  exact (rest.guard fun _ => sound.isReady).look

theorem passes_newUnique (chart : Chart) :
    Passes guards.sizes id (Shapes.newUniqueWith guards) Shapes.newUnique chart.shapes :=
  passes_allocate Shape.emptyUnique rfl fun _ shared => absurd shared.symm Bool.false_ne_true

theorem gatherWith_eq (found : chart.get? handle = some shape) {bound : Nat}
    (enough : chart.rank shape.serial ≤ bound) :
    Shapes.gatherWith guards chart.shapes.arena bound handle =
      Shapes.gather chart.shapes.arena bound handle := by
  induction bound generalizing handle shape with
  | zero =>
    -- a live shape counts in its own rank, so the bound is not used up here
    have member := Arena.mem_handles.mpr (live_of_get? found)
    have positive : 0 < chart.rank shape.serial :=
      List.countP_pos_iff.mpr ⟨handle, member, by simp [found]⟩
    omega
  | succ bound ih =>
    have placed := placed found
    change chart.shapes.arena.get? handle = some shape at found
    unfold Shapes.gatherWith Shapes.gather
    cases built : shape.table with
    | some table => simp only [found, built]
    | none =>
      cases linked : shape.previous with
      | none =>
        cases added : shape.added <;> simp only [found, built, linked, added]
      | some previous =>
        obtain ⟨parent, name, parentFound, _, earlier, _⟩ := placed.previous previous linked
        have shorter := rank_lt found earlier
        have same := ih parentFound (by omega)
        cases added : shape.added <;> simp only [found, built, linked, same, added]

theorem fullTableWith_eq (live : chart.Live handle) :
    Shapes.fullTableWith guards handle chart.shapes = Shapes.fullTable handle chart.shapes := by
  obtain ⟨shape, found⟩ := live_iff.mp live
  unfold Shapes.fullTableWith Shapes.fullTable
  rw [Action.bind_ok (Action.get_apply _), Action.bind_ok (Action.get_apply _),
    gatherWith_eq found (chart.rank_le_capacity _), gather_ok found (chart.rank_le_capacity _)]

theorem materializeWith_eq (live : chart.Live handle) :
    Shapes.materializeWith guards handle chart.shapes = Shapes.materialize handle chart.shapes := by
  obtain ⟨shape, found⟩ := live_iff.mp live
  unfold Shapes.materializeWith Shapes.materialize
  rw [Action.bind_ok (fetch_ok found), Action.bind_ok (fetch_ok found)]
  cases shape.table with
  | some table => rfl
  | none =>
    simp only
    rw [Action.bind_apply, Action.bind_apply, fullTableWith_eq live]

theorem lookupWith_eq (live : chart.Live handle) (key : Key) :
    Shapes.lookupWith guards handle key chart.shapes = Shapes.lookup handle key chart.shapes := by
  obtain ⟨shape, found⟩ := live_iff.mp live
  unfold Shapes.lookupWith Shapes.lookup
  rw [Action.bind_ok (fetch_ok found), Action.bind_ok (fetch_ok found)]
  cases shape.table <;> cases shape.previous <;> cases Shapes.addedOffset shape key <;>
    first
    | rfl
    | simp only [Action.bind_apply, materializeWith_eq live]

theorem passes_newUniqueFrom (live : chart.Live handle) :
    Passes guards.sizes id (Shapes.newUniqueFromWith guards handle) (Shapes.newUniqueFrom handle)
      chart.shapes := by
  obtain ⟨shape, found⟩ := live_iff.mp live
  have gathered : Passes guards.sizes id (Shapes.fullTableWith guards handle)
      (Shapes.fullTable handle) chart.shapes :=
    Action.passes_of_agrees (Agrees.refl chart) (fullTable_ok live) (fullTableWith_eq live) rfl rfl
  unfold Shapes.newUniqueFromWith Shapes.newUniqueFrom
  refine gathered.step (fullTable_ok live) (Passes.skip (fetch_ok found) ?_)
  exact passes_allocate _ rfl fun _ shared => absurd shared.symm Bool.false_ne_true

theorem passes_lookup (live : chart.Live handle) (key : Key) :
    Passes guards.sizes id (Shapes.lookupWith guards handle key) (Shapes.lookup handle key)
      chart.shapes := by
  obtain ⟨after, agrees, ran⟩ := lookup_ok live key
  exact Action.passes_of_agrees agrees ran (lookupWith_eq live key) rfl rfl

theorem passes_names (live : chart.Live handle) :
    Passes guards.sizes id (Shapes.namesWith guards handle) (Shapes.names handle)
      chart.shapes := by
  obtain ⟨after, agrees, ran⟩ := names_ok live
  refine Action.passes_of_agrees agrees ran ?_ rfl rfl
  unfold Shapes.namesWith Shapes.names
  rw [Action.bind_apply, Action.bind_apply, materializeWith_eq live]

theorem passes_extendUnique (found : chart.get? handle = some shape) (unique : shape.isUnique = true)
    (absent : (chart.layouts handle).offset? key = none) :
    Passes guards.sizes id (Shapes.extendUniqueWith guards handle key)
      (Shapes.extendUnique handle key) chart.shapes := by
  obtain ⟨table, _⟩ := (placed found).fits.unique_table unique
  have built := materialize_built found table
  have missing : (shape.table.bind (·.find? key)).isNone = true := by
    rw [table, Option.bind_some]
    exact Option.isNone_iff_eq_none.mpr absent
  unfold Shapes.extendUniqueWith Shapes.extendUnique
  refine Passes.step (Action.passes_of_agrees (Agrees.refl chart) built
    (materializeWith_eq (live_of_get? found)) rfl rfl) built ?_
  refine Passes.skip (fetch_ok found) ?_
  refine Passes.guard (Action.passes_of_counts ⟨Nat.le_refl _, fun slim => ?_⟩) fun _ => missing
  exact slim.set handle fun shared => absurd (shared.symm.trans unique) Bool.false_ne_true

theorem passes_materialize (guards : Guards) (found : chart.get? handle = some shape) :
    ∃ (after : Chart) (cell : Shape),
      Shapes.materialize handle chart.shapes = .ok () after.shapes ∧
      after.get? handle = some cell ∧ after.layouts = chart.layouts ∧
      cell.table = some (chart.layouts handle).table ∧
      Passes guards.sizes id (Shapes.materializeWith guards handle) (Shapes.materialize handle)
        chart.shapes := by
  obtain ⟨after, cell, ran, agrees, cellFound, table, _, _⟩ := materialize_ok found
  have same : Shapes.materializeWith guards handle chart.shapes =
      Shapes.materialize handle chart.shapes := materializeWith_eq (live_of_get? found)
  exact ⟨after, cell, ran, cellFound, agrees.layouts, table,
    Action.passes_of_agrees agrees ran same rfl rfl⟩

theorem passes_newChild (found : chart.get? handle = some shape) {children : Transitions}
    (shared : shape.sharing = .shared children) :
    Passes guards.sizes id (Shapes.newChildWith guards handle shape children key)
      (Shapes.newChild handle shape children key) chart.shapes := by
  have open_ : shape.isUnique = false := by rw [Shape.isUnique, shared]
  have earlier := serial_lt found
  have small : chart.shapes.Slim →
      (shape.child handle key chart.shapes.issued).size ≤ chart.shapes.issued := by
    intro slim
    have bound := slim handle shape found open_
    have size : (shape.child handle key chart.shapes.issued).size ≤ shape.size + 1 := by
      change (if shape.freed.isEmpty = true then shape.size + 1 else shape.size) ≤ shape.size + 1
      split <;> omega
    omega
  have made : Passes guards.sizes id (Shapes.allocateWith guards (shape.child handle key))
      (Shapes.allocate (shape.child handle key)) chart.shapes :=
    passes_allocate _ rfl fun slim _ => small slim
  have rest : Passes guards.sizes id
      (Shapes.allocateWith guards (shape.child handle key) >>= fun child => do
        Shapes.replace handle { shape with sharing := .shared (children.insert key child) }
        return (child, shape.nextOffset))
      (Shapes.newChild handle shape children key) chart.shapes := by
    refine Passes.step made rfl (Action.passes_of_counts ⟨Nat.le_refl _, fun slim => ?_⟩)
    have sound := chart.charted.sound
    have fresh := Arena.get?_alloc_fresh sound (shape.child handle key chart.shapes.issued)
    have different : handle ≠ (chart.shapes.arena.alloc
        (shape.child handle key chart.shapes.issued)).1 := by
      intro same
      rw [← same] at fresh
      cases fresh.symm.trans found
    have present := Arena.get?_alloc sound (shape.child handle key chart.shapes.issued) handle
    rw [if_neg different] at present
    exact slim.set handle fun _ => slim handle shape (present.trans found) open_
  refine rest.guard fun start counted _ => ?_
  obtain ⟨slim, few⟩ := start counted
  have bound := slim handle shape found open_
  have grown : chart.shapes.issued + 1 ≤ Config.wordMax := few
  omega

theorem passes_add (live : chart.Live handle) (absent : (chart.layouts handle).offset? key = none) :
    Passes guards.sizes id (Shapes.addWith guards handle key) (Shapes.add handle key)
      chart.shapes := by
  obtain ⟨shape, found⟩ := live_iff.mp live
  unfold Shapes.addWith Shapes.add
  refine Passes.skip (fetch_ok found) ?_
  cases sharing : shape.sharing with
  | unique =>
    have unique : shape.isUnique = true := by rw [Shape.isUnique, sharing]
    exact passes_extendUnique found unique absent
  | shared children =>
    cases known : children.find? key with
    | none =>
      simp only [known]
      exact passes_newChild found sharing
    | some child =>
      simp only [known]
      have led : chart.shapes.child? handle key = some child := by
        rw [child?_eq found, Shape.child?, sharing]
        exact known
      obtain ⟨cell, childFound, _, extension⟩ := follows_of_child? led
      refine Passes.skip (fetch_ok childFound) ?_
      rw [extension.added]
      exact Action.passes_pure _

/-- Losing a name leaves the number of slots as it is. -/
theorem size_fork (found : chart.get? handle = some shape) {offset : Nat}
    (present : (chart.layouts handle).offset? key = some offset) (serial : Nat) :
    (shape.fork ((chart.layouts handle).table.erase key) offset serial).size = shape.size := by
  have layout := Layout.remove_of_found present
  calc (shape.fork ((chart.layouts handle).table.erase key) offset serial).size
    _ = ((chart.layouts handle).remove key).size := by
      rw [layout, Layout.size, ← (fits found).freed]
      rfl
    _ = (chart.layouts handle).size := Layout.size_remove (fits found).sound key
    _ = shape.size := (fits found).size_eq.symm

theorem passes_shrinkUnique (unique : shape.isUnique = true) (handle : Handle) (key : Key)
    (shapes : Shapes) :
    Passes guards.sizes id (Shapes.shrinkUnique handle shape key)
      (Shapes.shrinkUnique handle shape key) shapes := by
  unfold Shapes.shrinkUnique
  refine Passes.step (Action.passes_of_counts ⟨Nat.le_succ shapes.issued, id⟩) rfl ?_
  dsimp only
  cases Table.find? (shape.table.getD []) key with
  | none => exact Action.passes_pure handle
  | some offset =>
    refine Action.passes_of_counts ⟨Nat.le_refl _, fun slim => ?_⟩
    exact slim.set handle fun shared => absurd (shared.symm.trans unique) Bool.false_ne_true

theorem passes_remove (live : chart.Live handle) (key : Key) :
    Passes guards.sizes id (Shapes.removeWith guards handle key) (Shapes.remove handle key)
      chart.shapes := by
  obtain ⟨shape, found⟩ := live_iff.mp live
  obtain ⟨between, cell, ran, cellFound, layouts, table, first⟩ :=
    passes_materialize guards found
  unfold Shapes.removeWith Shapes.remove
  refine Passes.step first ran ?_
  refine Passes.skip (fetch_ok cellFound) ?_
  cases sharing : cell.sharing with
  | unique =>
    have unique : cell.isUnique = true := by rw [Shape.isUnique, sharing]
    exact passes_shrinkUnique unique handle key between.shapes
  | shared children =>
    have open_ : cell.isUnique = false := by rw [Shape.isUnique, sharing]
    simp only [table, Option.getD_some]
    cases present : (chart.layouts handle).table.find? key with
    | none => exact Action.passes_pure handle
    | some offset =>
      refine passes_allocate _ rfl fun slim _ => ?_
      have there : (between.layouts handle).offset? key = some offset := layouts ▸ present
      have same := size_fork cellFound there between.shapes.issued
      rw [layouts] at same
      rw [same]
      exact (slim handle cell cellFound open_).trans (serial_lt cellFound).le

end Chart

end HiddenClass
