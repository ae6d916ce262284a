import HiddenClass.Proofs.Action
import HiddenClass.Proofs.Arena
import HiddenClass.Proofs.Shape.Layout
import HiddenClass.Proofs.Shape.Transitions
import HiddenClass.Shape.Graph
import Mathlib.Data.List.Count
import Mathlib.Logic.Function.Basic

/-!
Charts: which layout each live shape stands for. Whether a table is built, where the way back leads
and which children were reached so far are all invisible in a chart.
-/

namespace HiddenClass

/-- A cell that stands for a layout. A table cuts the way back, and a unique shape has one. -/
structure Shape.Fits (shape : Shape) (layout : Layout) : Prop where
  sound : layout.Sound
  freed : shape.freed = layout.freed
  table : ∀ table, shape.table = some table → table = layout.table ∧ shape.previous = none
  reserved : shape.table = none → shape.reserved = layout.size
  unique : shape.isUnique = true → ∃ table, shape.table = some table

/-- A cell that was made for a name added to a parent's layout. -/
structure Shape.Extends (shape : Shape) (layout parent : Layout) (key : Key) : Prop where
  absent : parent.offset? key = none
  added : shape.added = some (key, parent.next)
  layout : layout = parent.add key

namespace Shape.Fits

variable {shape : Shape} {layout : Layout} {table : Table}

theorem table_eq (fits : shape.Fits layout) (built : shape.table = some table) :
    shape.table = some layout.table := by
  rw [built, (fits.table table built).1]

theorem size_eq (fits : shape.Fits layout) : shape.size = layout.size := by
  cases built : shape.table with
  | none => rw [Shape.size, built, fits.reserved built]
  | some table =>
    rw [Shape.size, built, (fits.table table built).1, fits.freed]
    rfl

theorem nextOffset_eq (fits : shape.Fits layout) : shape.nextOffset = layout.next := by
  rw [Shape.nextOffset, fits.size_eq, fits.freed]
  rfl

theorem unique_table (fits : shape.Fits layout) (unique : shape.isUnique = true) :
    shape.table = some layout.table ∧ shape.previous = none := by
  obtain ⟨table, built⟩ := fits.unique unique
  exact ⟨fits.table_eq built, (fits.table table built).2⟩

end Shape.Fits

namespace Shapes

variable {shapes : Shapes} {layouts : Handle → Layout} {handle : Handle} {shape cell : Shape}
  {layout : Layout}

/-- A live cell that is open to sharing and was made for a name added to a layout. -/
def Follows (shapes : Shapes) (layouts : Handle → Layout) (parent : Layout) (key : Key)
    (child : Handle) : Prop :=
  ∃ cell, shapes.arena.get? child = some cell ∧ cell.isUnique = false ∧
    cell.Extends (layouts child) parent key

/-- A live cell that is open to sharing and lacks a name that the given cell was made for. -/
def Precedes (shapes : Shapes) (layouts : Handle → Layout) (shape : Shape) (layout : Layout)
    (previous : Handle) : Prop :=
  ∃ parent key, shapes.arena.get? previous = some parent ∧ parent.isUnique = false ∧
    parent.serial < shape.serial ∧ shape.Extends layout (layouts previous) key

/-- What a cell says about its place among the others. -/
structure Placed (shapes : Shapes) (layouts : Handle → Layout) (shape : Shape) (layout : Layout) :
    Prop where
  issued : shape.serial < shapes.issued
  fits : shape.Fits layout
  root : shape.table = none → shape.previous = none → shape.added = none ∧ layout = {}
  previous : ∀ previous, shape.previous = some previous →
    Precedes shapes layouts shape layout previous
  children : ∀ children, shape.sharing = .shared children → ∀ entry ∈ children.entries,
    Follows shapes layouts layout entry.1 entry.2

/-- Every live cell stands for its layout and is placed accordingly. -/
structure Charted (shapes : Shapes) (layouts : Handle → Layout) : Prop where
  sound : shapes.arena.Sound
  placed : ∀ handle shape, shapes.arena.get? handle = some shape →
    Placed shapes layouts shape (layouts handle)

theorem follows_of_unique (unique : shape.isUnique = true) (children : Transitions)
    (shared : shape.sharing = .shared children) (entry : Key × Handle) (_ : entry ∈ children.entries) :
    Follows shapes layouts layout entry.1 entry.2 := by
  rw [Shape.isUnique, shared] at unique
  cases unique

theorem follows_of_childless (childless : shape.sharing = .shared .none) (children : Transitions)
    (shared : shape.sharing = .shared children) (entry : Key × Handle) (member : entry ∈ children.entries) :
    Follows shapes layouts layout entry.1 entry.2 := by
  rw [childless] at shared
  rw [← Sharing.shared.inj shared] at member
  cases member

/-- A root has no names, no way back and no children. -/
theorem placed_root (shapes : Shapes) (layouts : Handle → Layout) {serial : Nat}
    (issued : serial < shapes.issued) : Placed shapes layouts (Shape.root serial) {} where
  issued := issued
  fits :=
    { sound := Layout.sound_empty
      freed := rfl
      table := fun _ built => absurd built.symm (Option.some_ne_none _)
      reserved := fun _ => rfl
      unique := fun unique => absurd unique Bool.false_ne_true }
  root := fun _ _ => ⟨rfl, rfl⟩
  previous := fun _ linked => absurd linked.symm (Option.some_ne_none _)
  children := follows_of_childless rfl

/-- A cell with a table is placed whatever came before it. -/
theorem Placed.of_table (issued : shape.serial < shapes.issued) (sound : layout.Sound)
    (freed : shape.freed = layout.freed) (built : shape.table = some layout.table)
    (cut : shape.previous = none)
    (children : ∀ children, shape.sharing = .shared children → ∀ entry ∈ children.entries,
      Follows shapes layouts layout entry.1 entry.2) :
    Placed shapes layouts shape layout where
  issued := issued
  fits :=
    { sound := sound
      freed := freed
      table := fun _ same => ⟨Option.some.inj (same.symm.trans built), cut⟩
      reserved := fun missing => absurd (built.symm.trans missing) (Option.some_ne_none _)
      unique := fun _ => ⟨_, built⟩ }
  root := fun missing => absurd (built.symm.trans missing) (Option.some_ne_none _)
  previous := fun _ linked => absurd (linked.symm.trans cut) (Option.some_ne_none _)
  children := children

/-- A cell that is open to sharing may list a further child. -/
theorem Placed.addChild {children : Transitions} {key : Key} {child : Handle}
    (placed : Placed shapes layouts shape layout) (shared : shape.sharing = .shared children)
    (follows : Follows shapes layouts layout key child) :
    Placed shapes layouts { shape with sharing := .shared (children.insert key child) } layout where
  issued := placed.issued
  fits :=
    { sound := placed.fits.sound
      freed := placed.fits.freed
      table := placed.fits.table
      reserved := placed.fits.reserved
      unique := fun unique => absurd unique Bool.false_ne_true }
  root := placed.root
  previous := by
    intro previous linked
    obtain ⟨parent, name, found, opened, earlier, step⟩ := placed.previous previous linked
    exact ⟨parent, name, found, opened, earlier, ⟨step.absent, step.added, step.layout⟩⟩
  children := by
    intro listed same entry member
    rw [← Sharing.shared.inj same] at member
    rcases Transitions.mem_insert member with rfl | old
    · exact follows
    · exact placed.children children shared entry old

/-! ### Adding and replacing cells -/

/-- What other cells rely on in a cell that is open to sharing. -/
structure Steady (shape cell : Shape) (layout after : Layout) : Prop where
  shared : cell.isUnique = false
  serial : cell.serial = shape.serial
  added : cell.added = shape.added
  layout : after = layout

/-- Cells that are open to sharing keep what others rely on. -/
def Keeps (shapes after : Shapes) (layouts charted : Handle → Layout) : Prop :=
  ∀ handle shape, shapes.arena.get? handle = some shape → shape.isUnique = false →
    ∃ cell, after.arena.get? handle = some cell ∧
      Steady shape cell (layouts handle) (charted handle)

variable {after : Shapes} {charted : Handle → Layout} {parent : Layout} {key : Key}

theorem Follows.keep (follows : Follows shapes layouts parent key handle)
    (keeps : Keeps shapes after layouts charted) : Follows after charted parent key handle := by
  obtain ⟨shape, found, shared, extension⟩ := follows
  obtain ⟨cell, foundAfter, steady⟩ := keeps handle shape found shared
  refine ⟨cell, foundAfter, steady.shared, ⟨extension.absent, ?_, ?_⟩⟩
  · rw [steady.added, extension.added]
  · rw [steady.layout, extension.layout]

theorem Precedes.keep (precedes : Precedes shapes layouts shape layout handle)
    (keeps : Keeps shapes after layouts charted) : Precedes after charted shape layout handle := by
  obtain ⟨parent, key, found, shared, earlier, extension⟩ := precedes
  obtain ⟨cell, foundAfter, steady⟩ := keeps handle parent found shared
  refine ⟨cell, key, foundAfter, steady.shared, ?_, ?_⟩
  · rw [steady.serial]
    exact earlier
  · rw [steady.layout]
    exact extension

theorem Placed.keep (placed : Placed shapes layouts shape layout)
    (keeps : Keeps shapes after layouts charted) (issued : shapes.issued ≤ after.issued) :
    Placed after charted shape layout where
  issued := Nat.lt_of_lt_of_le placed.issued issued
  fits := placed.fits
  root := placed.root
  previous := fun previous linked => (placed.previous previous linked).keep keeps
  children := fun children shared entry member =>
    (placed.children children shared entry member).keep keeps

theorem Charted.issue (charted : Charted shapes layouts) :
    Charted { shapes with issued := shapes.issued + 1 } layouts where
  sound := charted.sound
  placed := fun handle shape found =>
    (charted.placed handle shape found).keep
      (fun _ cell present shared => ⟨cell, present, shared, rfl, rfl, rfl⟩) (Nat.le_succ _)

/-- Replaces a cell that still says what others rely on. -/
theorem Charted.set (charted : Charted shapes layouts)
    (found : shapes.arena.get? handle = some shape)
    (steady : shape.isUnique = false → Steady shape cell (layouts handle) layout)
    (placed : Placed shapes layouts cell layout) :
    Charted { shapes with arena := shapes.arena.set handle cell }
      (Function.update layouts handle layout) := by
  have cells := Arena.get?_set_live (Arena.contains_of_get? found) cell
  have keeps : Keeps shapes { shapes with arena := shapes.arena.set handle cell } layouts
      (Function.update layouts handle layout) := by
    intro other present presentFound shared
    by_cases same : other = handle
    · subst same
      rw [found] at presentFound
      cases presentFound
      refine ⟨cell, (cells other).trans (if_pos rfl), ?_⟩
      rw [Function.update_self]
      exact steady shared
    · refine ⟨present, ?_, ?_⟩
      · rw [cells, if_neg same]
        exact presentFound
      · rw [Function.update_of_ne same]
        exact ⟨shared, rfl, rfl, rfl⟩
  refine ⟨Arena.sound_set charted.sound handle cell, ?_⟩
  intro other present presentFound
  rw [cells] at presentFound
  by_cases same : other = handle
  · subst same
    rw [if_pos rfl] at presentFound
    cases presentFound
    rw [Function.update_self]
    exact placed.keep keeps (Nat.le_refl _)
  · rw [if_neg same] at presentFound
    rw [Function.update_of_ne same]
    exact (charted.placed other present presentFound).keep keeps (Nat.le_refl _)

/-- Adds a cell at the handle that the arena gives out next. -/
theorem Charted.alloc (charted : Charted shapes layouts) (placed : Placed shapes layouts cell layout) :
    Charted { shapes with arena := (shapes.arena.alloc cell).2 }
      (Function.update layouts (shapes.arena.alloc cell).1 layout) := by
  have fresh := Arena.get?_alloc_fresh charted.sound cell
  have keeps : Keeps shapes { shapes with arena := (shapes.arena.alloc cell).2 } layouts
      (Function.update layouts (shapes.arena.alloc cell).1 layout) := by
    intro other present presentFound shared
    have different : other ≠ (shapes.arena.alloc cell).1 := by
      intro same
      rw [same, fresh] at presentFound
      cases presentFound
    refine ⟨present, ?_, ?_⟩
    · rw [Arena.get?_alloc charted.sound, if_neg different]
      exact presentFound
    · rw [Function.update_of_ne different]
      exact ⟨shared, rfl, rfl, rfl⟩
  refine ⟨Arena.sound_alloc charted.sound cell, ?_⟩
  intro other present presentFound
  rw [Arena.get?_alloc charted.sound] at presentFound
  by_cases same : other = (shapes.arena.alloc cell).1
  · rw [if_pos same] at presentFound
    cases presentFound
    rw [same, Function.update_self]
    exact placed.keep keeps (Nat.le_refl _)
  · rw [if_neg same] at presentFound
    rw [Function.update_of_ne same]
    exact (charted.placed other present presentFound).keep keeps (Nat.le_refl _)

end Shapes

/-- All shapes of a heap together with their layouts. -/
structure Chart where
  shapes : Shapes
  layouts : Handle → Layout
  charted : shapes.Charted layouts

namespace Chart

variable {chart : Chart} {handle : Handle} {shape : Shape}

def get? (chart : Chart) (handle : Handle) : Option Shape := chart.shapes.arena.get? handle

def Live (chart : Chart) (handle : Handle) : Prop := chart.shapes.arena.contains handle = true

/-- A live shape that other objects may come to have. -/
def Shared (chart : Chart) (handle : Handle) : Prop :=
  ∃ shape, chart.get? handle = some shape ∧ shape.isUnique = false

theorem live_iff : chart.Live handle ↔ ∃ shape, chart.get? handle = some shape :=
  Arena.contains_iff

theorem live_of_get? (found : chart.get? handle = some shape) : chart.Live handle :=
  Arena.contains_of_get? found

theorem Shared.live (shared : chart.Shared handle) : chart.Live handle := by
  obtain ⟨shape, found, _⟩ := shared
  exact live_of_get? found

theorem shared_iff (found : chart.get? handle = some shape) :
    chart.Shared handle ↔ shape.isUnique = false := by
  constructor
  · rintro ⟨cell, present, shared⟩
    rw [found] at present
    cases present
    exact shared
  · intro shared
    exact ⟨shape, found, shared⟩

theorem placed (found : chart.get? handle = some shape) :
    Shapes.Placed chart.shapes chart.layouts shape (chart.layouts handle) :=
  chart.charted.placed handle shape found

theorem fits (found : chart.get? handle = some shape) : shape.Fits (chart.layouts handle) :=
  (placed found).fits

theorem sound (live : chart.Live handle) : (chart.layouts handle).Sound := by
  obtain ⟨shape, found⟩ := live_iff.mp live
  exact (fits found).sound

end Chart

end HiddenClass
