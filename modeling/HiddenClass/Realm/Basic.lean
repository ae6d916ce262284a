import HiddenClass.Names
import HiddenClass.Object

/-!
A realm owns objects, shapes and names. Its operations take objects by handle; a handle whose object
is gone stops them.
-/

namespace HiddenClass

structure Realm where
  config : Config
  shapes : Shapes
  objects : Arena Object := {}
  names : Names := {}
  /-- Where ordinary objects start. -/
  objectRoot : Handle
  /-- Where arrays start. -/
  arrayRoot : Handle
deriving Repr

namespace Realm

abbrev Action := HiddenClass.Action Realm

def ofConfig (config : Config) : Realm :=
  let shapes := Shapes.ofCapacity config.initialSlotCapacity
  let (objectRoot, arena) := shapes.arena.alloc (Shape.root 0)
  let (arrayRoot, arena) := arena.alloc (Shape.root 1)
  { config, shapes := { shapes with arena, issued := 2 }, objectRoot, arrayRoot }

def onShapes {α : Type} (action : Shapes.Action α) : Action α :=
  Action.focus Realm.shapes (fun realm shapes => { realm with shapes }) action

def fetch (handle : Handle) : Action Object := do
  match (← get).objects.get? handle with
  | some object => return object
  | none => throw (.stale handle)

def replace (handle : Handle) (object : Object) : Action Unit :=
  modify fun realm => { realm with objects := realm.objects.set handle object }

/-- Runs an action on one object. -/
def onObject {α : Type} (handle : Handle) (action : Object.Action α) : Action α := do
  let object ← fetch handle
  Action.focus (fun realm => ⟨object, realm.shapes⟩)
    (fun realm part =>
      { realm with objects := realm.objects.set handle part.object, shapes := part.shapes })
    action

def intern (text : String) : Action Key :=
  modifyGet fun realm =>
    let (names, key) := realm.names.intern text
    (key, { realm with names })

def allocate (shape : Handle) (kind : ObjectKind) (prototype : Option Handle) : Action Handle := do
  let store ← onShapes (Store.ofShape shape)
  modifyGet fun realm =>
    let (handle, objects) := realm.objects.alloc { store, kind, prototype }
    (handle, { realm with objects })

def newObject (prototype : Option Handle) : Action Handle := do
  allocate (← get).objectRoot .ordinary prototype

/-- An ordinary object whose shape is its own. -/
def newUniqueObject (prototype : Option Handle) : Action Handle := do
  allocate (← onShapes Shapes.newUnique) .ordinary prototype

def newArray (length : Nat) : Action Handle := do
  let realm ← get
  allocate realm.arrayRoot (.array (.ofLength length realm.config)) none

def shapeOf (handle : Handle) : Action Handle := do
  return (← fetch handle).store.shape

/-- Gives an object a shape of its own with the same layout. -/
def makeUnique (handle : Handle) : Action Unit := do
  let object ← fetch handle
  if (← onShapes (Shapes.fetch object.store.shape)).isUnique then return ()
  else
    let shape ← onShapes (Shapes.newUniqueFrom object.store.shape)
    replace handle { object with store := { object.store with shape } }

/-- Lets other objects share the shapes that follow the present one. -/
def makeTransitionable (handle : Handle) : Action Unit := do
  onShapes (Shapes.share (← shapeOf handle))

def setPrototype (handle : Handle) (prototype : Option Handle) : Action Unit := do
  let object ← fetch handle
  replace handle { object with prototype }

def preventExtensions (handle : Handle) : Action Unit := do
  let object ← fetch handle
  replace handle { object with extensible := false }

def getOwn (handle : Handle) (key : Key) : Action (Option Descriptor) :=
  onObject handle (Object.getOwn key)

/-- Refusals are raised as errors or answered by `false`, as the caller wishes. -/
def define (handle : Handle) (key : Key) (desc : Descriptor) (raises : Bool) : Action Bool :=
  Action.report raises (onObject handle (Object.define key desc))

def delete (handle : Handle) (key : Key) (raises : Bool) : Action Bool :=
  Action.report raises (onObject handle (Object.delete key))

def keys (handle : Handle) (filter : KeyFilter) : Action (List Key) :=
  onObject handle (Object.keys filter)

end Realm

end HiddenClass
