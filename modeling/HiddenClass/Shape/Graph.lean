import HiddenClass.Action
import HiddenClass.Shape.Basic

/-!
All shapes of a heap, with the operations that move an object from one shape to another. Looking a
name up may build the table of a shape, which changes no later answer.
-/

namespace HiddenClass

structure Shapes where
  arena : Arena Shape := {}
  /-- The number of identities given out. -/
  issued : Nat := 0
  /-- The least number of slots that an object reserves. -/
  slotCapacity : Nat := 8
deriving Repr

namespace Shapes

abbrev Action := HiddenClass.Action Shapes

def ofCapacity (slotCapacity : Nat) : Shapes := { slotCapacity := max slotCapacity 1 }

def size (shapes : Shapes) : Nat := shapes.arena.size

def fetch (handle : Handle) : Action Shape := do
  match (← get).arena.get? handle with
  | some shape => return shape
  | none => throw (.stale handle)

def replace (handle : Handle) (shape : Shape) : Action Unit :=
  modify fun shapes => { shapes with arena := shapes.arena.set handle shape }

def issue : Action Nat :=
  modifyGet fun shapes => (shapes.issued, { shapes with issued := shapes.issued + 1 })

def allocate (shape : Nat → Shape) : Action Handle := do
  let serial ← issue
  modifyGet fun shapes =>
    let (handle, arena) := shapes.arena.alloc (shape serial)
    (handle, { shapes with arena })

def newRoot : Action Handle := allocate Shape.root

def newUnique : Action Handle := allocate Shape.emptyUnique

/-- The full table of a shape: the nearest table along `previous`, with the names added since. The
way back is no longer than the number of slots in the arena. -/
def gather (arena : Arena Shape) : Nat → Handle → Except Fault Table
  | 0, _ => .ok []
  | bound + 1, handle =>
    match arena.get? handle with
    | none => .error (.stale handle)
    | some shape =>
      match shape.table with
      | some table => .ok table
      | none => do
        let inherited ← match shape.previous with
          | some previous => gather arena bound previous
          | none => .ok []
        match shape.added with
        | some (key, offset) => return inherited.insert key offset
        | none => return inherited

def fullTable (handle : Handle) : Action Table := do
  let arena := (← get).arena
  match gather arena arena.capacity handle with
  | .ok table => return table
  | .error fault => throw fault

/-- Keeps the full table at the shape and cuts the way back. -/
def materialize (handle : Handle) : Action Unit := do
  let shape ← fetch handle
  match shape.table with
  | some _ => return ()
  | none =>
    let table ← fullTable handle
    replace handle { shape with table := some table, previous := none }

/-- A unique shape with the same layout. -/
def newUniqueFrom (source : Handle) : Action Handle := do
  let table ← fullTable source
  let shape ← fetch source
  allocate (shape.copy table)

/-- The name added last is found without a table. -/
def addedOffset (shape : Shape) (key : Key) : Option Nat :=
  match shape.added with
  | some (name, offset) => if name = key then some offset else none
  | none => none

def lookup (handle : Handle) (key : Key) : Action (Option Nat) := do
  let shape ← fetch handle
  match shape.table, shape.previous, addedOffset shape key with
  | some table, _, _ => return table.find? key
  | none, none, found => return found
  | none, some _, some offset => return some offset
  | none, some _, none =>
    materialize handle
    return (← fetch handle).table.bind (·.find? key)

def extendUnique (handle : Handle) (key : Key) : Action (Handle × Nat) := do
  materialize handle
  let shape ← fetch handle
  let offset := shape.nextOffset
  replace handle
    { shape with
      freed := shape.freed.tail
      table := shape.table.map fun table => table.insert key offset }
  return (handle, offset)

def newChild (handle : Handle) (parent : Shape) (children : Transitions) (key : Key) :
    Action (Handle × Nat) := do
  let child ← allocate (parent.child handle key)
  replace handle { parent with sharing := .shared (children.insert key child) }
  return (child, parent.nextOffset)

/-- The shape of an object that gains a name it lacks, and the offset of that name. A shared shape
leads to the same child every time. -/
def add (handle : Handle) (key : Key) : Action (Handle × Nat) := do
  let shape ← fetch handle
  match shape.sharing with
  | .unique => extendUnique handle key
  | .shared children =>
    match children.find? key with
    | none => newChild handle shape children key
    | some child =>
      match (← fetch child).added with
      | some (_, offset) => return (child, offset)
      | none => newChild handle shape children key

/-- A unique shape gets a new identity when it loses a name, since the offset may be used again. The
identity is spent on a missing name too. -/
def shrinkUnique (handle : Handle) (shape : Shape) (key : Key) : Action Handle := do
  let serial ← issue
  let table := shape.table.getD []
  match table.find? key with
  | some offset =>
    replace handle
      { shape with serial, table := some (table.erase key), freed := offset :: shape.freed }
    return handle
  | none => return handle

/-- The shape of an object that loses a name. A shared shape is left as it is and a new one takes
its place. -/
def remove (handle : Handle) (key : Key) : Action Handle := do
  materialize handle
  let shape ← fetch handle
  match shape.sharing with
  | .unique => shrinkUnique handle shape key
  | .shared _ =>
    let table := shape.table.getD []
    match table.find? key with
    | some offset => allocate (shape.fork (table.erase key) offset)
    | none => return handle

/-- Opens a unique shape to sharing; what is shared stays so. -/
def share (handle : Handle) : Action Unit := do
  let shape ← fetch handle
  match shape.sharing with
  | .unique => replace handle { shape with sharing := .shared .none }
  | .shared _ => return ()

/-- The names of a shape with their offsets, by ascending offset. -/
def names (handle : Handle) : Action (List (Key × Nat)) := do
  materialize handle
  let shape ← fetch handle
  return shape.table.getD []

/-- The number of slots to reserve: the least one, or the next power of two. -/
def reserve (slotCapacity size : Nat) : Nat :=
  if size ≤ slotCapacity then slotCapacity else 1 <<< ((size - 1).log2 + 1)

def capacity (handle : Handle) : Action Nat := do
  let shape ← fetch handle
  return reserve (← get).slotCapacity shape.size

end Shapes

end HiddenClass
