import HiddenClass.Proofs.Shape.Graph

/-!
Which shapes an operation makes: none but the one that it answers.
-/

namespace HiddenClass

namespace Shapes

/-- The live shapes. -/
def live (shapes : Shapes) : Handle → Bool := shapes.arena.contains

variable {shapes after : Shapes} {handle own other : Handle} {shape : Shape} {key : Key}

theorem keeps_fetch (handle : Handle) (shapes : Shapes) : (fetch handle).Keeps id shapes := by
  unfold fetch
  apply Action.keeps_get
  cases shapes.arena.get? handle <;> rfl

theorem keeps_fullTable (handle : Handle) (shapes : Shapes) :
    (fullTable handle).Keeps id shapes := by
  unfold fullTable
  apply Action.keeps_get
  dsimp only
  cases gather shapes.arena shapes.arena.capacity handle <;> rfl

theorem keeps_replace (handle : Handle) (shape : Shape) (shapes : Shapes) :
    (replace handle shape).Keeps live shapes :=
  funext fun other => Arena.contains_set shapes.arena handle other shape

theorem keeps_materialize (handle : Handle) (shapes : Shapes) :
    (materialize handle).Keeps live shapes := by
  unfold materialize
  apply Action.Keeps.bind (congrArg live (keeps_fetch handle shapes))
  intro shape fetched _
  cases shape.table with
  | some table => rfl
  | none =>
    apply Action.Keeps.bind (congrArg live (keeps_fullTable handle fetched))
    intro table gathered _
    exact keeps_replace ..

theorem keeps_lookup (handle : Handle) (key : Key) (shapes : Shapes) :
    (lookup handle key).Keeps live shapes := by
  unfold lookup
  apply Action.Keeps.bind (congrArg live (keeps_fetch handle shapes))
  intro shape fetched _
  split
  · rfl
  · rfl
  · rfl
  · apply Action.Keeps.bind (keeps_materialize handle fetched)
    intro _ built _
    apply Action.Keeps.bind (congrArg live (keeps_fetch handle built))
    intro cell last _
    rfl

theorem keeps_names (handle : Handle) (shapes : Shapes) : (names handle).Keeps live shapes := by
  unfold names
  apply Action.Keeps.bind (keeps_materialize handle shapes)
  intro _ built _
  apply Action.Keeps.bind (congrArg live (keeps_fetch handle built))
  intro cell last _
  rfl

theorem keeps_share (handle : Handle) (shapes : Shapes) : (share handle).Keeps live shapes := by
  unfold share
  apply Action.Keeps.bind (congrArg live (keeps_fetch handle shapes))
  intro shape fetched _
  cases shape.sharing with
  | unique => exact keeps_replace ..
  | shared children => rfl

theorem keeps_extendUnique (handle : Handle) (key : Key) (shapes : Shapes) :
    (extendUnique handle key).Keeps live shapes := by
  unfold extendUnique
  apply Action.Keeps.bind (keeps_materialize handle shapes)
  intro _ built _
  apply Action.Keeps.bind (congrArg live (keeps_fetch handle built))
  intro shape fetched _
  apply Action.Keeps.bind (keeps_replace ..)
  intro _ replaced _
  rfl

theorem keeps_shrinkUnique (handle : Handle) (shape : Shape) (key : Key) (shapes : Shapes) :
    (shrinkUnique handle shape key).Keeps live shapes := by
  unfold shrinkUnique
  apply Action.Keeps.bind (rfl : issue.Keeps live shapes)
  intro serial issued _
  dsimp only
  cases Table.find? (shape.table.getD []) key with
  | none => rfl
  | some offset =>
    apply Action.Keeps.bind (keeps_replace ..)
    intro _ replaced _
    rfl

/-- The only shape that an action makes is the one that it answers. -/
def Bears {α : Type} (action : Action α) (own : α → Handle) (shapes : Shapes) : Prop :=
  ∀ answer after, action shapes = .ok answer after → ∀ other, after.live other = true →
    shapes.live other = true ∨ other = own answer

theorem bears_of_keeps {α : Type} {action : Action α} (keeps : action.Keeps live shapes)
    (own : α → Handle) : Bears action own shapes := by
  intro answer after ran other later
  rw [keeps.ok ran] at later
  exact Or.inl later

theorem bears_pure {α : Type} (answer : α) (own : α → Handle) (shapes : Shapes) :
    Bears (pure answer) own shapes :=
  bears_of_keeps (rfl : (pure answer : Action α).Keeps live shapes) own

theorem Bears.bind {α β : Type} {action : Action α} {next : α → Action β} {own : β → Handle}
    (first : action.Keeps live shapes)
    (second : ∀ answer after, action shapes = .ok answer after → Bears (next answer) own after) :
    Bears (action >>= next) own shapes := by
  intro last after ran other later
  rw [Action.bind_apply] at ran
  cases began : action shapes with
  | error fault between =>
    rw [began] at ran
    cases ran
  | ok answer between =>
    rw [began] at ran
    rw [← first.ok began]
    exact second answer between began last after ran other later

theorem Bears.map {α : Type} {action : Action α} {own : α → Handle} (bears : Bears action own shapes) :
    Bears (do return own (← action)) id shapes := by
  intro last after ran other later
  rw [Action.bind_apply] at ran
  cases began : action shapes with
  | error fault between =>
    rw [began] at ran
    cases ran
  | ok answer between =>
    rw [began] at ran
    cases ran
    exact bears answer after began other later

theorem bears_allocate (sound : shapes.arena.Sound) (shapeOf : Nat → Shape) :
    Bears (allocate shapeOf) id shapes := by
  intro own after ran other later
  cases ran
  exact ((Arena.contains_alloc sound ..).mp later).symm

theorem bears_newChild (sound : shapes.arena.Sound) (handle : Handle) (parent : Shape)
    (children : Transitions) (key : Key) :
    Bears (newChild handle parent children key) Prod.fst shapes := by
  intro answer after ran other later
  cases ran
  rw [live, Arena.contains_set] at later
  exact ((Arena.contains_alloc sound ..).mp later).symm

theorem bears_add (sound : shapes.arena.Sound) (handle : Handle) (key : Key) :
    Bears (add handle key) Prod.fst shapes := by
  unfold add
  apply Bears.bind (congrArg live (keeps_fetch handle shapes))
  intro shape fetched ran
  have same : fetched = shapes := (keeps_fetch handle shapes).ok ran
  subst same
  cases shape.sharing with
  | unique => exact bears_of_keeps (keeps_extendUnique ..) _
  | shared children =>
    dsimp only
    cases children.find? key with
    | none => exact bears_newChild sound handle shape children key
    | some child =>
      apply Bears.bind (congrArg live (keeps_fetch child fetched))
      intro cell between ran
      have same : between = fetched := (keeps_fetch child fetched).ok ran
      subst same
      cases cell.added with
      | none => exact bears_newChild sound handle shape children key
      | some entry => exact bears_pure (child, entry.2) Prod.fst between

theorem bears_newUniqueFrom (sound : shapes.arena.Sound) (source : Handle) :
    Bears (newUniqueFrom source) id shapes := by
  unfold newUniqueFrom
  apply Bears.bind (congrArg live (keeps_fullTable source shapes))
  intro table gathered ran
  have same : gathered = shapes := (keeps_fullTable source shapes).ok ran
  subst same
  apply Bears.bind (congrArg live (keeps_fetch source gathered))
  intro shape fetched ran
  have same : fetched = gathered := (keeps_fetch source gathered).ok ran
  subst same
  exact bears_allocate sound _

theorem bears_remove {chart : Chart} (found : chart.get? handle = some shape) (key : Key) :
    Bears (remove handle key) id chart.shapes := by
  obtain ⟨between, cell, ran, _, cellFound, _⟩ := Chart.materialize_ok found
  unfold remove
  apply Bears.bind (keeps_materialize handle chart.shapes)
  intro _ built builtRan
  rw [ran] at builtRan
  cases builtRan
  apply Bears.bind (congrArg live (keeps_fetch handle between.shapes))
  intro shape fetched fetchedRan
  have same : fetched = between.shapes := (keeps_fetch handle between.shapes).ok fetchedRan
  subst same
  cases shape.sharing with
  | unique => exact bears_of_keeps (keeps_shrinkUnique ..) _
  | shared children =>
    dsimp only
    cases Table.find? (shape.table.getD []) key with
    | none => exact bears_pure handle id between.shapes
    | some offset => exact bears_allocate between.charted.sound _

end Shapes

end HiddenClass
