import HiddenClass.Shape.Table
import HiddenClass.Shape.Transitions

/-!
A shape assigns slot offsets to the names of the objects that have it. Shared shapes form a tree
whose edges are added names; a child records only the name it adds and finds the others along
`previous`, until its full table is built. A unique shape belongs to one object and is edited in
place.
-/

namespace HiddenClass

inductive Sharing where
  | unique
  | shared (children : Transitions)
deriving DecidableEq, Repr

structure Shape where
  /-- How many identities were issued before this one. -/
  serial : Nat
  sharing : Sharing
  table : Option Table
  /-- Offsets of deleted names, the one deleted last in front. -/
  freed : List Nat
  /-- The name by which a child differs from its parent, with its offset. -/
  added : Option (Key × Nat)
  previous : Option Handle
  /-- The number of slots as long as there is no table. -/
  reserved : Nat
deriving DecidableEq, Repr

namespace Shape

/-- The identity that a cache may be keyed by. -/
def id (shape : Shape) : UInt32 := UInt32.ofNat shape.serial

def isUnique (shape : Shape) : Bool :=
  match shape.sharing with
  | .unique => true
  | .shared _ => false

def childCount (shape : Shape) : Nat :=
  match shape.sharing with
  | .unique => 0
  | .shared children => children.length

/-- The number of slots that the names and the freed offsets take up together. -/
def size (shape : Shape) : Nat :=
  match shape.table with
  | some table => table.length + shape.freed.length
  | none => shape.reserved

def root (serial : Nat) : Shape :=
  { serial
    sharing := .shared .none
    table := none
    freed := []
    added := none
    previous := none
    reserved := 0 }

def emptyUnique (serial : Nat) : Shape :=
  { serial
    sharing := .unique
    table := some []
    freed := []
    added := none
    previous := none
    reserved := 0 }

/-- A unique shape with a given layout. -/
def copy (table : Table) (source : Shape) (serial : Nat) : Shape :=
  { serial
    sharing := .unique
    table := some table
    freed := source.freed
    added := none
    previous := none
    reserved := source.size }

/-- The offset for a new name: the one freed last, or the next one past the end. -/
def nextOffset (shape : Shape) : Nat := shape.freed.head?.getD shape.size

/-- The child of a shared shape for an added name. -/
def child (parent : Shape) (handle : Handle) (key : Key) (serial : Nat) : Shape :=
  { serial
    sharing := .shared .none
    table := none
    freed := parent.freed.tail
    added := some (key, parent.nextOffset)
    previous := some handle
    reserved := if parent.freed.isEmpty then parent.size + 1 else parent.size }

/-- The shape beside a shared one for a deleted name. It is no one's child. -/
def fork (parent : Shape) (table : Table) (offset serial : Nat) : Shape :=
  { serial
    sharing := .shared .none
    table := some table
    freed := offset :: parent.freed
    added := none
    previous := none
    reserved := parent.size }

end Shape

end HiddenClass
