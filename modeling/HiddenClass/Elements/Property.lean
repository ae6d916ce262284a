import HiddenClass.Elements.Basic
import HiddenClass.Store

/-!
Array elements as own properties. An element whose property is not plain moves to the store, and the
array is sparse from then on.
-/

namespace HiddenClass.Elements

/-- The elements of an array together with the rest of its properties. -/
structure Context where
  elements : Elements
  store : Store
  shapes : Shapes
deriving Repr

abbrev Action := HiddenClass.Action Context

def onStore {α : Type} (action : Store.Action α) : Action α :=
  Action.focus (fun context => ⟨context.store, context.shapes⟩)
    (fun context part => { context with store := part.store, shapes := part.shapes }) action

def update (change : Elements → Elements) : Action Unit :=
  modify fun context => { context with elements := change context.elements }

def storedSlot (index : Nat) : Action (Option Slot) := onStore (Store.slot? (.index index))

def getOwn (index : Nat) : Action (Option Descriptor) := do
  match (← get).elements.lookup index with
  | .present value => return some (.plain value)
  | .absent => return none
  | .fallback => return (← storedSlot index).map Slot.toDescriptor

/-- The value that an element has after a definition, or nothing if its property is then no plain
one or is stored already. -/
def plainValue (index : Nat) (desc : Descriptor) : Action (Option Value) := do
  let elements := (← get).elements
  match elements.peek index with
  | some current =>
    let slot := (Slot.plain current).merge desc
    return if slot.flags = .plain then some slot.value else none
  | none =>
    let fresh := if desc.lacksValue then .undefined else desc.value
    if !desc.isPlain then return none
    else if elements.dense then return some fresh
    else return if (← storedSlot index).isSome then none else some fresh

/-- Hands a plain element over to the store. -/
def moveToStore (index : Nat) : Action Unit := do
  let (taken, elements) := (← get).elements.take index
  match taken with
  | some current =>
    update fun _ => elements.makeSparse
    let _ ← onStore (Store.define (.index index) (.plain current) true)
  | none => return ()

def defineStored (index : Nat) (desc : Descriptor) (extensible : Bool) : Action Verdict := do
  moveToStore index
  match ← onStore (Store.define (.index index) desc extensible) with
  | .accepted =>
    update makeSparse
    return .accepted
  | .rejected reason => return .rejected reason

def defineElement (index : Nat) (desc : Descriptor) (extensible : Bool) : Action Verdict := do
  match ← plainValue index desc with
  | some value =>
    if ((← get).elements.peek index).isNone && !extensible then
      return .rejected .notExtensible
    else
      update fun elements => elements.store index value
      return .accepted
  | none => defineStored index desc extensible

/-- A new element at or past the end makes the array longer, if its length may change. -/
def define (index : Nat) (desc : Descriptor) (extensible : Bool) : Action Verdict := do
  let before := (← get).elements
  if before.length ≤ index && !before.lengthWritable then return .rejected .beyondFixedLength
  else
    match ← defineElement index desc extensible with
    | .accepted =>
      if before.length ≤ index then
        update fun elements => { elements with length := index + 1 }
      return .accepted
    | .rejected reason => return .rejected reason

def delete (index : Nat) : Action Verdict := do
  let (taken, elements) := (← get).elements.take index
  update fun _ => elements
  if taken.isSome || elements.dense then return .accepted
  else onStore (Store.delete (.index index))

end HiddenClass.Elements
