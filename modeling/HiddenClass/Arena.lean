/-!
A slot allocator whose handles are never reused. Freeing a cell moves its slot to the next
generation, so a handle that outlives its cell is recognised even after the slot holds another one.
-/

namespace HiddenClass

structure Handle where
  index : Nat
  generation : UInt32
deriving DecidableEq, Repr, Inhabited

def Handle.label (handle : Handle) : String := s!"Gc({handle.index}#{handle.generation})"

/-- One slot: how often it was freed, and its cell while it holds one. -/
structure Entry (α : Type) where
  recycled : Nat
  cell : Option α
deriving Repr

/-- The generation is the recycle count modulo the width of a handle's field. -/
def Entry.handle {α : Type} (entry : Entry α) (index : Nat) : Handle :=
  ⟨index, UInt32.ofNat entry.recycled⟩

structure Arena (α : Type) where
  entries : Array (Entry α) := #[]
  /-- Empty slots, the one freed last in front. -/
  vacant : List Nat := []
  /-- The number of cells. -/
  size : Nat := 0
deriving Repr

namespace Arena

variable {α : Type}

def capacity (arena : Arena α) : Nat := arena.entries.size

def get? (arena : Arena α) (handle : Handle) : Option α :=
  match arena.entries[handle.index]? with
  | some entry => if entry.handle handle.index = handle then entry.cell else none
  | none => none

def contains (arena : Arena α) (handle : Handle) : Bool := (arena.get? handle).isSome

/-- Fills the slot freed last, or a new one when none is vacant. -/
def alloc (arena : Arena α) (cell : α) : Handle × Arena α :=
  match arena.vacant with
  | index :: rest =>
    let entry := arena.entries[index]?.getD ⟨0, none⟩
    (entry.handle index,
      { entries := arena.entries.setIfInBounds index { entry with cell := some cell }
        vacant := rest
        size := arena.size + 1 })
  | [] =>
    let entry : Entry α := ⟨0, some cell⟩
    (entry.handle arena.entries.size,
      { arena with entries := arena.entries.push entry, size := arena.size + 1 })

/-- Replaces the cell of a live handle; a stale one changes nothing. -/
def set (arena : Arena α) (handle : Handle) (cell : α) : Arena α :=
  if arena.contains handle then
    { arena with
      entries := arena.entries.modify handle.index fun entry => { entry with cell := some cell } }
  else arena

/-- The live handles by ascending slot. -/
def handles (arena : Arena α) : List Handle :=
  arena.entries.toList.zipIdx.filterMap fun (entry, index) =>
    entry.cell.map fun _ => entry.handle index

/-- Empties the slot of a live handle. -/
def release (arena : Arena α) (handle : Handle) : Arena α :=
  { entries := arena.entries.modify handle.index fun entry =>
      { recycled := entry.recycled + 1, cell := none }
    vacant := handle.index :: arena.vacant
    size := arena.size - 1 }

/-- Frees the cells whose handles are not to be kept, by ascending slot, and counts them. -/
def retain (arena : Arena α) (keep : Handle → Bool) : Nat × Arena α :=
  let dropped := arena.handles.filter fun handle => !keep handle
  (dropped.length, dropped.foldl release arena)

end Arena

end HiddenClass
