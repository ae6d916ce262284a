import HiddenClass.Realm.Basic

/-!
Mark and sweep over objects and shapes. A cell is traced when it is first reached, the one reached
last being next. A mark belongs to a place in an arena, whatever the generation of the handle that
set it.
-/

namespace HiddenClass

inductive Cell where
  | object (handle : Handle)
  | shape (handle : Handle)
deriving DecidableEq, Repr

namespace Value

/-- The cells that a value keeps alive. -/
def edges : Value → List Cell
  | .object handle => [.object handle]
  | _ => []

end Value

namespace Slot

def edges (slot : Slot) : List Cell := slot.value.edges ++ slot.getter.edges ++ slot.setter.edges

end Slot

namespace Shape

def edges (shape : Shape) : List Cell :=
  let children := match shape.sharing with
    | .unique => []
    | .shared children => children.entries.map fun child => .shape child.2
  children ++ shape.previous.toList.map .shape

end Shape

namespace Elements

def edges (elements : Elements) : List Cell :=
  elements.vector.toList.flatMap Value.edges ++ elements.map.flatMap fun entry => entry.2.edges

end Elements

namespace Object

def edges (object : Object) : List Cell :=
  let held := match object.kind with
    | .array elements => elements.edges
    | .ordinary => []
  .shape object.store.shape :: object.store.slots.toList.flatMap Slot.edges ++ held
    ++ object.prototype.toList.map .object

end Object

/-- The places reached so far and the cells still to be traced, the next one in front. -/
structure Marks where
  objects : Array Bool
  shapes : Array Bool
  pending : List Cell := []
deriving Repr

namespace Marks

def visit (marks : Marks) : Cell → Marks
  | .object handle =>
    if marks.objects[handle.index]? = some false then
      { marks with
        objects := marks.objects.setIfInBounds handle.index true
        pending := .object handle :: marks.pending }
    else marks
  | .shape handle =>
    if marks.shapes[handle.index]? = some false then
      { marks with
        shapes := marks.shapes.setIfInBounds handle.index true
        pending := .shape handle :: marks.pending }
    else marks

def hasObject (marks : Marks) (handle : Handle) : Bool :=
  marks.objects[handle.index]?.getD false

def hasShape (marks : Marks) (handle : Handle) : Bool :=
  marks.shapes[handle.index]?.getD false

end Marks

/-- The counts of a collection. -/
structure Census where
  liveObjects : Nat
  freedObjects : Nat
  liveShapes : Nat
  freedShapes : Nat
deriving DecidableEq, Repr

namespace Realm

def edges (realm : Realm) : Cell → List Cell
  | .object handle => ((realm.objects.get? handle).map Object.edges).getD []
  | .shape handle => ((realm.shapes.arena.get? handle).map Shape.edges).getD []

/-- Traces at most `bound` pending cells. -/
def trace (realm : Realm) : Nat → Marks → Marks
  | 0, marks => marks
  | bound + 1, marks =>
    match marks.pending with
    | [] => marks
    | cell :: rest =>
      trace realm bound ((realm.edges cell).foldl Marks.visit { marks with pending := rest })

/-- The two shapes that new objects start at are always kept. -/
def rootCells (realm : Realm) (roots : List Handle) : List Cell :=
  roots.map .object ++ [.shape realm.objectRoot, .shape realm.arrayRoot]

/-- Every place is traced once at most, so the number of places bounds the work. -/
def mark (realm : Realm) (roots : List Handle) : Marks :=
  let places := realm.objects.capacity + realm.shapes.arena.capacity
  let unmarked : Marks :=
    { objects := Array.replicate realm.objects.capacity false
      shapes := Array.replicate realm.shapes.arena.capacity false }
  realm.trace places ((realm.rootCells roots).foldl Marks.visit unmarked)

def collect (roots : List Handle) : Action Census :=
  modifyGet fun realm =>
    let marks := realm.mark roots
    let (freedObjects, objects) := realm.objects.retain marks.hasObject
    let (freedShapes, arena) := realm.shapes.arena.retain marks.hasShape
    ({ liveObjects := objects.size, freedObjects, liveShapes := arena.size, freedShapes },
      { realm with objects, shapes := { realm.shapes with arena } })

end Realm

end HiddenClass
