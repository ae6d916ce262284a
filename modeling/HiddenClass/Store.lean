import HiddenClass.Property.Slot
import HiddenClass.Shape.Graph

/-!
The named properties of an object: a shape, and the slots that its offsets point into.
-/

namespace HiddenClass

structure Store where
  shape : Handle
  slots : Array Slot
deriving DecidableEq, Repr

/-- Which keys a listing includes. -/
inductive KeyFilter where
  | all
  | enumerable
deriving DecidableEq, Repr

namespace Store

/-- A store together with the shapes that it draws on. -/
structure Context where
  store : Store
  shapes : Shapes
deriving Repr

abbrev Action := HiddenClass.Action Context

def onShapes {α : Type} (action : Shapes.Action α) : Action α :=
  Action.focus Context.shapes (fun context shapes => { context with shapes }) action

def ofShape (shape : Handle) : Shapes.Action Store := do
  let capacity ← Shapes.capacity shape
  return { shape, slots := Array.replicate capacity .vacant }

def slotAt (store : Store) (offset : Nat) : Slot := store.slots[offset]?.getD .vacant

def setSlot (store : Store) (offset : Nat) (slot : Slot) : Store :=
  { store with slots := store.slots.setIfInBounds offset slot }

/-- Lengthens the slots with vacant ones. -/
def grow (store : Store) (size : Nat) : Store :=
  { store with slots := store.slots ++ Array.replicate (size - store.slots.size) .vacant }

def offset? (key : Key) : Action (Option Nat) := do
  let shape := (← get).store.shape
  onShapes (Shapes.lookup shape key)

def find? (key : Key) : Action (Option (Nat × Slot)) := do
  match ← offset? key with
  | some offset => return (← get).store.slots[offset]?.map fun slot => (offset, slot)
  | none => return none

def slot? (key : Key) : Action (Option Slot) := do
  return (← find? key).map Prod.snd

def update (change : Store → Store) : Action Unit :=
  modify fun context => { context with store := change context.store }

/-- Moves the object to the shape with the new name and fills its slot. -/
def insert (key : Key) (slot : Slot) : Action Unit := do
  let store := (← get).store
  let (shape, offset) ← onShapes (Shapes.add store.shape key)
  update fun store => { store with shape }
  if offset < store.slots.size then
    update fun store => store.setSlot offset slot
  else
    let capacity ← onShapes (Shapes.capacity shape)
    update fun store => (store.grow (max capacity (offset + 1))).setSlot offset slot

def define (key : Key) (desc : Descriptor) (extensible : Bool) : Action Verdict := do
  match ← find? key with
  | some (offset, slot) =>
    match slot.validate desc with
    | .accepted =>
      update fun store => store.setSlot offset (slot.merge desc)
      return .accepted
    | .rejected reason => return .rejected reason
  | none =>
    if extensible then
      insert key (.ofDescriptor desc)
      return .accepted
    else return .rejected .notExtensible

def delete (key : Key) : Action Verdict := do
  match ← offset? key with
  | none => return .accepted
  | some offset =>
    let store := (← get).store
    if (store.slotAt offset).flags.configurable then
      let shape ← onShapes (Shapes.remove store.shape key)
      update fun store => { store with shape }.setSlot offset .vacant
      return .accepted
    else return .rejected .notDeletable

/-- The keys in slot order. -/
def keys (filter : KeyFilter) : Action (List Key) := do
  let store := (← get).store
  let names ← onShapes (Shapes.names store.shape)
  let listed := names.filter fun (_, offset) =>
    filter = .all || (store.slotAt offset).flags.enumerable
  return listed.map Prod.fst

end Store

end HiddenClass
