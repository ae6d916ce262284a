import HiddenClass.Config
import HiddenClass.Property.Slot

/-!
The elements of an array that are plain data properties. Those below a bound are held in a vector,
where holes mark the missing ones, and those above it in an ordered map. An array that has only
such elements is dense; in a sparse one a missing element may be a stored property instead.
-/

namespace HiddenClass

/-- What the elements alone can tell about an index. -/
inductive Element where
  | present (value : Value)
  /-- There is no own property at the index. -/
  | absent
  /-- The stored properties have to be asked. -/
  | fallback
deriving DecidableEq, Repr

structure Elements where
  vector : Array Value
  /-- By ascending index. -/
  map : List (Nat × Value) := []
  dense : Bool := true
  length : Nat
  lengthWritable : Bool := true
  maxVectorSize : Nat
  shrinkScanThreshold : Nat
deriving DecidableEq, Repr

namespace Elements

def ofLength (length : Nat) (config : Config) : Elements :=
  { vector := Array.replicate (if length ≤ config.maxVectorSize then length else 0) .hole
    length
    maxVectorSize := config.maxVectorSize
    shrinkScanThreshold := config.shrinkScanThreshold }

/-- There is no way back to a dense array. -/
def makeSparse (elements : Elements) : Elements := { elements with dense := false }

/-- What is held at an index, a hole included. -/
def held (elements : Elements) (index : Nat) : Option Value :=
  if index < elements.maxVectorSize then elements.vector[index]? else elements.map.lookup index

def peek (elements : Elements) (index : Nat) : Option Value :=
  (elements.held index).filter fun value => !value.isHole

def lookup (elements : Elements) (index : Nat) : Element :=
  match elements.peek index with
  | some value => .present value
  | none => if elements.dense then .absent else .fallback

def insertEntry (index : Nat) (value : Value) : List (Nat × Value) → List (Nat × Value)
  | [] => [(index, value)]
  | (i, v) :: rest =>
    if i < index then (i, v) :: insertEntry index value rest
    else if i = index then (index, value) :: rest
    else (index, value) :: (i, v) :: rest

def store (elements : Elements) (index : Nat) (value : Value) : Elements :=
  if index < elements.maxVectorSize then
    let holes := Array.replicate (index + 1 - elements.vector.size) .hole
    { elements with vector := (elements.vector ++ holes).setIfInBounds index value }
  else { elements with map := insertEntry index value elements.map }

/-- Takes the value at an index out. The map gives up whatever it holds, the vector no hole. -/
def take (elements : Elements) (index : Nat) : Option Value × Elements :=
  if index < elements.maxVectorSize then
    match elements.peek index with
    | some value =>
      (some value, { elements with vector := elements.vector.setIfInBounds index .hole })
    | none => (none, elements)
  else
    match elements.map.lookup index with
    | some value =>
      (some value, { elements with map := elements.map.filter fun entry => entry.1 ≠ index })
    | none => (none, elements)

/-- Drops everything at or above a length. -/
def compact (elements : Elements) (length : Nat) : Elements :=
  if elements.maxVectorSize < length then
    { elements with map := elements.map.filter fun entry => entry.1 < length }
  else { elements with map := [], vector := elements.vector.take length }

/-- The indices in use, ascending. -/
def indices (elements : Elements) : List Nat :=
  (elements.vector.toList.zipIdx.filterMap fun (value, index) =>
    if value.isHole then none else some index) ++ elements.map.map Prod.fst

/-- The `length` property. -/
def lengthSlot (elements : Elements) : Slot :=
  { value := .ofWord elements.length, flags := .ofLength elements.lengthWritable }

/-- Takes over the `length` property after a change. A value that is no array length is not taken
over. -/
def setLengthSlot (elements : Elements) (slot : Slot) : Elements :=
  let length :=
    match slot.value.toNumber.truncate with
    | some n => if 0 ≤ n ∧ n ≤ 4294967295 then n.toNat else elements.length
    | none => elements.length
  { elements with length, lengthWritable := slot.flags.writable }

end Elements

end HiddenClass
