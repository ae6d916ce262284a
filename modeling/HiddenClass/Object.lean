import HiddenClass.Elements.Length

/-!
Objects, ordinary ones and arrays. An array answers for its indices and its `length` itself and
leaves all other keys to its store, as an ordinary object leaves all.
-/

namespace HiddenClass

inductive ObjectKind where
  | ordinary
  | array (elements : Elements)
deriving DecidableEq, Repr

structure Object where
  store : Store
  kind : ObjectKind := .ordinary
  prototype : Option Handle
  extensible : Bool := true
deriving DecidableEq, Repr

namespace Object

/-- An object together with the shapes that it draws on. -/
structure Context where
  object : Object
  shapes : Shapes
deriving Repr

abbrev Action := HiddenClass.Action Context

def elements? (object : Object) : Option Elements :=
  match object.kind with
  | .array elements => some elements
  | .ordinary => none

/-- The part of an object that a key belongs to. -/
inductive Place where
  | element (elements : Elements) (index : Nat)
  | length (elements : Elements)
  | store

/-- An index past the largest array index is a name like any other. -/
def place (object : Object) (key : Key) : Place :=
  match object.kind, key with
  | .ordinary, _ => .store
  | .array elements, .index n => if n < Key.indexBound then .element elements n else .store
  | .array elements, .named id => if Key.named id = Key.length then .length elements else .store

def onStore {α : Type} (action : Store.Action α) : Action α :=
  Action.focus (fun context => ⟨context.object.store, context.shapes⟩)
    (fun context part =>
      { object := { context.object with store := part.store }, shapes := part.shapes })
    action

def onElements {α : Type} (elements : Elements) (action : Elements.Action α) : Action α :=
  Action.focus (fun context => ⟨elements, context.object.store, context.shapes⟩)
    (fun context part =>
      { object := { context.object with store := part.store, kind := .array part.elements }
        shapes := part.shapes })
    action

def getOwn (key : Key) : Action (Option Descriptor) := do
  match (← get).object.place key with
  | .element elements index => onElements elements (Elements.getOwn index)
  | .length elements => return some elements.lengthSlot.toDescriptor
  | .store => return (← onStore (Store.slot? key)).map Slot.toDescriptor

def define (key : Key) (desc : Descriptor) : Action Verdict := do
  let object := (← get).object
  match object.place key with
  | .element elements index =>
    onElements elements (Elements.define index desc object.extensible)
  | .length elements => onElements elements (Elements.defineLength desc)
  | .store => onStore (Store.define key desc object.extensible)

def delete (key : Key) : Action Verdict := do
  match (← get).object.place key with
  | .element elements index => onElements elements (Elements.delete index)
  | .length _ => return .rejected .notDeletable
  | .store => onStore (Store.delete key)

/-- An array lists `length`, then its indices in ascending order, then its other keys in slot order;
an ordinary object lists all keys in slot order. -/
def keys (filter : KeyFilter) : Action (List Key) := do
  let stored ← onStore (Store.keys filter)
  match (← get).object.elements? with
  | none => return stored
  | some elements =>
    let first :=
      if filter = .all || elements.lengthSlot.flags.enumerable then [Key.length] else []
    let indices := Indices.ascending (elements.indices ++ stored.filterMap Key.index?)
    let names := stored.filter fun key => key.index?.isNone
    return first ++ indices.map Key.index ++ names

end Object

end HiddenClass
