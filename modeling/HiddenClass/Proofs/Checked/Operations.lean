import HiddenClass.Proofs.Checked.Text
import HiddenClass.Realm.Request

/-!
The operations with their conditions checked where they are carried out. A place that is written or
read has to be there, a number has to fit a machine word, a name that is added has to be new, and a
way that is followed has to end. Where one of this is not so, an operation stops at a fault of its own.

A change may also be refused deep inside the calls that it is made of, and each of these calls is
told whether to raise an error for it. Elements that move to the store and elements that are deleted
for the sake of `length` are always asked quietly.
-/

namespace HiddenClass

/-- Which conditions are checked. -/
structure Guards where
  /-- The fault of a condition that is not met. Without one, nothing is checked. -/
  crash : Option Fault := none
  /-- Whether the number of slots of a shape has to be a word, too. -/
  sizes : Bool := false

/-- Nothing is checked. -/
def Guards.off : Guards := {}

/-- Everything is checked but the sizes of shapes. -/
def Guards.places (crash : Fault) : Guards := { crash := some crash }

def Guards.all (crash : Fault) : Guards := { crash := some crash, sizes := true }

def Verdict.isAccepted : Verdict → Bool
  | .accepted => true
  | .rejected _ => false

namespace Action

variable {σ : Type}

def require (crash : Option Fault) (condition : Prop) [Decidable condition] : Action σ Unit :=
  match crash with
  | none => return ()
  | some fault => if condition then return () else throw fault

def increment (crash : Option Fault) (n : Nat) : Action σ Nat := do
  require crash (n + 1 ≤ Config.wordMax)
  return n + 1

def subtract (crash : Option Fault) (m n : Nat) : Action σ Nat := do
  require crash (n ≤ m)
  return m - n

/-- Refuses on the spot. -/
def refuse (raises : Bool) (reason : Rejection) : Action σ Verdict :=
  if raises then throw (.error (.rejected reason)) else return .rejected reason

end Action

open HiddenClass.Action (require increment subtract refuse)

/-- The slot that is to be filled next is there. -/
def Arena.isReady {α : Type} (arena : Arena α) : Bool :=
  arena.vacant.head?.all fun index => index < arena.entries.size

variable (guards : Guards)

/-! ### Shapes -/

namespace Shapes

def allocateWith (shape : Nat → Shape) : Action Handle := do
  require guards.crash (← get).arena.isReady
  allocate shape

def newUniqueWith : Action Handle := allocateWith guards Shape.emptyUnique

/-- The way back has to end within the number of slots in the arena. -/
def gatherWith (arena : Arena Shape) : Nat → Handle → Except Fault Table
  | 0, _ =>
    match guards.crash with
    | none => .ok []
    | some fault => .error fault
  | bound + 1, handle =>
    match arena.get? handle with
    | none => .error (.stale handle)
    | some shape =>
      match shape.table with
      | some table => .ok table
      | none => do
        let inherited ← match shape.previous with
          | some previous => gatherWith arena bound previous
          | none => .ok []
        match shape.added with
        | some (key, offset) => return inherited.insert key offset
        | none => return inherited

def fullTableWith (handle : Handle) : Action Table := do
  let arena := (← get).arena
  match gatherWith guards arena arena.capacity handle with
  | .ok table => return table
  | .error fault => throw fault

def materializeWith (handle : Handle) : Action Unit := do
  let shape ← fetch handle
  match shape.table with
  | some _ => return ()
  | none =>
    let table ← fullTableWith guards handle
    replace handle { shape with table := some table, previous := none }

def newUniqueFromWith (source : Handle) : Action Handle := do
  let table ← fullTableWith guards source
  let shape ← fetch source
  allocateWith guards (shape.copy table)

def lookupWith (handle : Handle) (key : Key) : Action (Option Nat) := do
  let shape ← fetch handle
  match shape.table, shape.previous, addedOffset shape key with
  | some table, _, _ => return table.find? key
  | none, none, found => return found
  | none, some _, some offset => return some offset
  | none, some _, none =>
    materializeWith guards handle
    return (← fetch handle).table.bind (·.find? key)

/-- A name that is added has no offset yet. -/
def extendUniqueWith (handle : Handle) (key : Key) : Action (Handle × Nat) := do
  materializeWith guards handle
  let shape ← fetch handle
  require guards.crash (shape.table.bind (·.find? key)).isNone
  let offset := shape.nextOffset
  replace handle
    { shape with
      freed := shape.freed.tail
      table := shape.table.map fun table => table.insert key offset }
  return (handle, offset)

def newChildWith (handle : Handle) (parent : Shape) (children : Transitions) (key : Key) :
    Action (Handle × Nat) := do
  require guards.crash
    (guards.sizes → parent.freed.isEmpty → parent.size + 1 ≤ Config.wordMax)
  let child ← allocateWith guards (parent.child handle key)
  replace handle { parent with sharing := .shared (children.insert key child) }
  return (child, parent.nextOffset)

def addWith (handle : Handle) (key : Key) : Action (Handle × Nat) := do
  let shape ← fetch handle
  match shape.sharing with
  | .unique => extendUniqueWith guards handle key
  | .shared children =>
    match children.find? key with
    | none => newChildWith guards handle shape children key
    | some child =>
      match (← fetch child).added with
      | some (_, offset) => return (child, offset)
      | none => newChildWith guards handle shape children key

def removeWith (handle : Handle) (key : Key) : Action Handle := do
  materializeWith guards handle
  let shape ← fetch handle
  match shape.sharing with
  | .unique => shrinkUnique handle shape key
  | .shared _ =>
    let table := shape.table.getD []
    match table.find? key with
    | some offset => allocateWith guards (shape.fork (table.erase key) offset)
    | none => return handle

def namesWith (handle : Handle) : Action (List (Key × Nat)) := do
  materializeWith guards handle
  let shape ← fetch handle
  return shape.table.getD []

end Shapes

/-! ### Stored properties -/

def Slot.validateWith {σ : Type} (raises : Bool) (slot : Slot) (desc : Descriptor) :
    Action σ Verdict :=
  let given := desc.attributes
  let flags := slot.flags
  if desc.isAbsent || slot.agrees desc then return .accepted
  else if flags.configurable then return .accepted
  else if given.configurable then refuse raises .configurableChange
  else if !given.enumerableAbsent && flags.enumerable != given.enumerable then
    refuse raises .enumerableChange
  else if given.isGeneric then return .accepted
  else if flags.data != given.data then refuse raises .typeChange
  else if flags.data then
    if flags.writable then return .accepted
    else if given.writable then refuse raises .writableChange
    else if !given.valueAbsent && !desc.value.sameValue slot.value then refuse raises .valueChange
    else return .accepted
  else if !given.setterAbsent && !desc.setter.sameValue slot.setter
      || !given.getterAbsent && !desc.getter.sameValue slot.getter then
    refuse raises .accessorChange
  else return .accepted

namespace Store

def offsetWith? (key : Key) : Action (Option Nat) := do
  let shape := (← get).store.shape
  onShapes (Shapes.lookupWith guards shape key)

def findWith? (key : Key) : Action (Option (Nat × Slot)) := do
  match ← offsetWith? guards key with
  | some offset => return (← get).store.slots[offset]?.map fun slot => (offset, slot)
  | none => return none

def slotWith? (key : Key) : Action (Option Slot) := do
  return (← findWith? guards key).map Prod.snd

/-- A slot that is written has to be there. -/
def writeWith (offset : Nat) (slot : Slot) : Action Unit := do
  require guards.crash (offset < (← get).store.slots.size)
  update fun store => store.setSlot offset slot

def insertWith (key : Key) (slot : Slot) : Action Unit := do
  let store := (← get).store
  let (shape, offset) ← onShapes (Shapes.addWith guards store.shape key)
  update fun store => { store with shape }
  if offset < store.slots.size then writeWith guards offset slot
  else
    let capacity ← onShapes (Shapes.capacity shape)
    update fun store => store.grow (max capacity (offset + 1))
    writeWith guards offset slot

def defineWith (raises : Bool) (key : Key) (desc : Descriptor) (extensible : Bool) :
    Action Verdict := do
  match ← findWith? guards key with
  | some (offset, slot) =>
    match ← slot.validateWith raises desc with
    | .accepted =>
      update fun store => store.setSlot offset (slot.merge desc)
      return .accepted
    | .rejected reason => return .rejected reason
  | none =>
    if extensible then
      insertWith guards key (.ofDescriptor desc)
      return .accepted
    else refuse raises .notExtensible

/-- The slot of a name is read and written without a further question. -/
def deleteWith (raises : Bool) (key : Key) : Action Verdict := do
  match ← offsetWith? guards key with
  | none => return .accepted
  | some offset =>
    let store := (← get).store
    require guards.crash (offset < store.slots.size)
    if (store.slotAt offset).flags.configurable then
      let shape ← onShapes (Shapes.removeWith guards store.shape key)
      update fun store => { store with shape }
      writeWith guards offset .vacant
      return .accepted
    else refuse raises .notDeletable

def keysWith (filter : KeyFilter) : Action (List Key) := do
  let store := (← get).store
  let names ← onShapes (Shapes.namesWith guards store.shape)
  let listed := names.filter fun (_, offset) =>
    filter = .all || (store.slotAt offset).flags.enumerable
  return listed.map Prod.fst

end Store

/-! ### Elements -/

namespace Elements

/-- Lengthens the vector with holes up to an index. -/
def reach (index : Nat) (elements : Elements) : Elements :=
  { elements with
    vector := elements.vector ++ Array.replicate (index + 1 - elements.vector.size) .hole }

/-- A place of the vector that is written has to be there. -/
def storeWith (index : Nat) (value : Value) : Action Unit := do
  if index < (← get).elements.maxVectorSize then
    update (reach index)
    require guards.crash (index < (← get).elements.vector.size)
    update fun elements => { elements with vector := elements.vector.setIfInBounds index value }
  else update fun elements => { elements with map := insertEntry index value elements.map }

def storedSlotWith (index : Nat) : Action (Option Slot) :=
  onStore (Store.slotWith? guards (.index index))

def getOwnWith (index : Nat) : Action (Option Descriptor) := do
  match (← get).elements.lookup index with
  | .present value => return some (.plain value)
  | .absent => return none
  | .fallback => return (← storedSlotWith guards index).map Slot.toDescriptor

def plainValueWith (index : Nat) (desc : Descriptor) : Action (Option Value) := do
  let elements := (← get).elements
  match elements.peek index with
  | some current =>
    let slot := (Slot.plain current).merge desc
    return if slot.flags = .plain then some slot.value else none
  | none =>
    let fresh := if desc.lacksValue then .undefined else desc.value
    if !desc.isPlain then return none
    else if elements.dense then return some fresh
    else return if (← storedSlotWith guards index).isSome then none else some fresh

def moveToStoreWith (index : Nat) : Action Unit := do
  let (taken, elements) := (← get).elements.take index
  match taken with
  | some current =>
    update fun _ => elements.makeSparse
    let _ ← onStore (Store.defineWith guards false (.index index) (.plain current) true)
  | none => return ()

def defineStoredWith (raises : Bool) (index : Nat) (desc : Descriptor) (extensible : Bool) :
    Action Verdict := do
  moveToStoreWith guards index
  match ← onStore (Store.defineWith guards raises (.index index) desc extensible) with
  | .accepted =>
    update makeSparse
    return .accepted
  | .rejected reason => return .rejected reason

def defineElementWith (raises : Bool) (index : Nat) (desc : Descriptor) (extensible : Bool) :
    Action Verdict := do
  match ← plainValueWith guards index desc with
  | some value =>
    if ((← get).elements.peek index).isNone && !extensible then refuse raises .notExtensible
    else
      storeWith guards index value
      return .accepted
  | none => defineStoredWith guards raises index desc extensible

/-- The length that an array gets from a new element is a word. -/
def defineWith (raises : Bool) (index : Nat) (desc : Descriptor) (extensible : Bool) :
    Action Verdict := do
  let before := (← get).elements
  if before.length ≤ index && !before.lengthWritable then refuse raises .beyondFixedLength
  else
    match ← defineElementWith guards raises index desc extensible with
    | .accepted =>
      if before.length ≤ index then
        let length ← increment guards.crash index
        update fun elements => { elements with length }
      return .accepted
    | .rejected reason => return .rejected reason

def deleteWith (raises : Bool) (index : Nat) : Action Verdict := do
  let (taken, elements) := (← get).elements.take index
  update fun _ => elements
  if taken.isSome || elements.dense then return .accepted
  else onStore (Store.deleteWith guards raises (.index index))

def applyLengthWith (raises : Bool) (desc : Descriptor) : Action Verdict := do
  let slot := (← get).elements.lengthSlot
  match ← slot.validateWith raises desc with
  | .accepted =>
    update fun elements => elements.setLengthSlot (slot.merge desc)
    return .accepted
  | .rejected reason => return .rejected reason

/-- Goes down from the index above the last one to be deleted. -/
def deleteRangeWith (floor : Nat) : Nat → Action (Option Nat)
  | 0 => return none
  | count + 1 => do
    let index ← subtract guards.crash (floor + count + 1) 1
    match ← deleteWith guards false index with
    | .accepted => deleteRangeWith floor count
    | .rejected _ => return some index

def deleteEachWith : List Nat → Action (Option Nat)
  | [] => return none
  | index :: rest => do
    match ← deleteWith guards false index with
    | .accepted => deleteEachWith rest
    | .rejected _ => return some index

def indicesFromWith (length : Nat) : Action (List Nat) := do
  let keys ← onStore (Store.keysWith guards .all)
  let own := (← get).elements.indices ++ keys.filterMap Key.index?
  return (Indices.ascending (own.filter fun index => length ≤ index)).reverse

def clearWith (length oldLength : Nat) : Action (Option Nat) := do
  let elements := (← get).elements
  if elements.dense then return none
  else
    let distance ← subtract guards.crash oldLength length
    if distance < elements.shrinkScanThreshold then deleteRangeWith guards length distance
    else deleteEachWith guards (← indicesFromWith guards length)

/-- The array is settled at the length that it is left with before the refusal is raised. -/
def shrinkWith (raises : Bool) (length oldLength : Nat) (writable : Bool) : Action Verdict := do
  match ← clearWith guards length oldLength with
  | none =>
    update (settle length writable)
    return .accepted
  | some index =>
    if index < Key.indexBound then
      update (settle (index + 1) writable)
      refuse raises .shrinkStopped
    else throw .overflow

def defineLengthWith (raises : Bool) (desc : Descriptor) : Action Verdict := do
  if desc.lacksValue then applyLengthWith raises desc
  else
    require guards.crash desc.value.prefixFits
    match lengthOf? desc.value with
    | none => throw (.error .invalidLength)
    | some length =>
      let before := (← get).elements
      let wanted := Descriptor.data (.ofWord length) desc.attributes
      if before.length ≤ length then applyLengthWith raises wanted
      else if !before.lengthWritable then refuse raises .lengthReadOnly
      else
        let given := wanted.attributes
        match ← applyLengthWith raises (wanted.withWritable true) with
        | .accepted =>
          shrinkWith guards raises length before.length (given.writableAbsent || given.writable)
        | .rejected reason => return .rejected reason

end Elements

/-! ### Objects -/

namespace Object

def getOwnWith (key : Key) : Action (Option Descriptor) := do
  match (← get).object.place key with
  | .element elements index => onElements elements (Elements.getOwnWith guards index)
  | .length elements => return some elements.lengthSlot.toDescriptor
  | .store => return (← onStore (Store.slotWith? guards key)).map Slot.toDescriptor

def defineWith (raises : Bool) (key : Key) (desc : Descriptor) : Action Verdict := do
  let object := (← get).object
  match object.place key with
  | .element elements index =>
    onElements elements (Elements.defineWith guards raises index desc object.extensible)
  | .length elements => onElements elements (Elements.defineLengthWith guards raises desc)
  | .store => onStore (Store.defineWith guards raises key desc object.extensible)

def deleteWith (raises : Bool) (key : Key) : Action Verdict := do
  match (← get).object.place key with
  | .element elements index => onElements elements (Elements.deleteWith guards raises index)
  | .length _ => refuse raises .notDeletable
  | .store => onStore (Store.deleteWith guards raises key)

def keysWith (filter : KeyFilter) : Action (List Key) := do
  let stored ← onStore (Store.keysWith guards filter)
  match (← get).object.elements? with
  | none => return stored
  | some elements =>
    let first :=
      if filter = .all || elements.lengthSlot.flags.enumerable then [Key.length] else []
    let indices := Indices.ascending (elements.indices ++ stored.filterMap Key.index?)
    let names := stored.filter fun key => key.index?.isNone
    return first ++ indices.map Key.index ++ names

end Object

/-! ### Realms -/

namespace Realm

def allocateWith (shape : Handle) (kind : ObjectKind) (prototype : Option Handle) :
    Action Handle := do
  let store ← onShapes (Store.ofShape shape)
  require guards.crash (← get).objects.isReady
  modifyGet fun realm =>
    let (handle, objects) := realm.objects.alloc { store, kind, prototype }
    (handle, { realm with objects })

def newObjectWith (prototype : Option Handle) : Action Handle := do
  allocateWith guards (← get).objectRoot .ordinary prototype

def newUniqueObjectWith (prototype : Option Handle) : Action Handle := do
  allocateWith guards (← onShapes (Shapes.newUniqueWith guards)) .ordinary prototype

def newArrayWith (length : Nat) : Action Handle := do
  let realm ← get
  allocateWith guards realm.arrayRoot (.array (.ofLength length realm.config)) none

def makeUniqueWith (handle : Handle) : Action Unit := do
  let object ← fetch handle
  if (← onShapes (Shapes.fetch object.store.shape)).isUnique then return ()
  else
    let shape ← onShapes (Shapes.newUniqueFromWith guards object.store.shape)
    replace handle { object with store := { object.store with shape } }

def getOwnWith (handle : Handle) (key : Key) : Action (Option Descriptor) :=
  onObject handle (Object.getOwnWith guards key)

def defineWith (raises : Bool) (handle : Handle) (key : Key) (desc : Descriptor) : Action Bool := do
  return (← onObject handle (Object.defineWith guards raises key desc)).isAccepted

def deleteWith (raises : Bool) (handle : Handle) (key : Key) : Action Bool := do
  return (← onObject handle (Object.deleteWith guards raises key)).isAccepted

def keysWith (handle : Handle) (filter : KeyFilter) : Action (List Key) :=
  onObject handle (Object.keysWith guards filter)

def searchWith (key : Key) : Nat → Handle → Action (Option Descriptor)
  | 0, _ => throw .endless
  | bound + 1, holder => do
    match ← getOwnWith guards holder key with
    | some desc => return some desc
    | none =>
      match (← fetch holder).prototype with
      | some prototype => searchWith key bound prototype
      | none => return none

def getPropertyWith (handle : Handle) (key : Key) : Action (Option Descriptor) := do
  searchWith guards key ((← get).objects.capacity + 1) handle

def readWith (host : Host) (handle : Handle) (key : Key) : Action Value := do
  match ← getPropertyWith guards handle key with
  | none => return .undefined
  | some desc =>
    if desc.isAccessor then call host desc.getter (.object handle) []
    else return desc.value

def assignmentWith (handle : Handle) (key : Key) : Action Assignment := do
  match ← getOwnWith guards handle key with
  | some desc =>
    if desc.isAccessor then return .ofSetter desc.setter
    else return if desc.isWritable then .overwrite else .refused
  | none =>
    let object ← fetch handle
    let inherited ← match object.prototype with
      | some prototype => getPropertyWith guards prototype key
      | none => pure none
    match inherited with
    | none => return if object.extensible then .create else .refused
    | some desc =>
      if desc.isAccessor then return .ofSetter desc.setter
      else return if object.extensible && desc.isWritable then .create else .refused

def assignWith (raises : Bool) (host : Host) (handle : Handle) (key : Key) (value : Value) :
    Action Verdict := do
  match ← assignmentWith guards handle key with
  | .refused => refuse raises .notAssignable
  | .setter function =>
    let _ ← call host function (.object handle) [value]
    return .accepted
  | .overwrite => onObject handle (Object.defineWith guards raises key (.assignment value))
  | .create => onObject handle (Object.defineWith guards raises key (.plain value))

def putWith (raises : Bool) (host : Host) (handle : Handle) (key : Key) (value : Value) :
    Action Bool := do
  return (← assignWith guards raises host handle key value).isAccepted

/-- Marking has to end, and no more cells are freed than there are. -/
def collectWith (roots : List Handle) : Action Census := do
  let realm ← get
  let marks := realm.mark roots
  require guards.crash marks.pending.isEmpty
  require guards.crash ((realm.objects.retain marks.hasObject).1 ≤ realm.objects.size)
  require guards.crash ((realm.shapes.arena.retain marks.hasShape).1 ≤ realm.shapes.arena.size)
  collect roots

end Realm

def Request.performWith (host : Host) : Request → Realm.Action Answer
  | .newObject prototype => return .handle (← Realm.newObjectWith guards prototype)
  | .newUniqueObject prototype => return .handle (← Realm.newUniqueObjectWith guards prototype)
  | .newArray length => return .handle (← Realm.newArrayWith guards length)
  | .getOwn object key => return .descriptor (← Realm.getOwnWith guards object key)
  | .getProperty object key => return .descriptor (← Realm.getPropertyWith guards object key)
  | .read object key => return .value (← Realm.readWith guards host object key)
  | .put object key value raises =>
    return .accepted (← Realm.putWith guards raises host object key value)
  | .define object key desc raises =>
    return .accepted (← Realm.defineWith guards raises object key desc)
  | .delete object key raises => return .accepted (← Realm.deleteWith guards raises object key)
  | .keys object filter => return .keys (← Realm.keysWith guards object filter)
  | .makeUnique object => do
    Realm.makeUniqueWith guards object
    return .done
  | .collect roots => return .census (← Realm.collectWith guards roots)
  | request => request.perform host

end HiddenClass
