import HiddenClass.Elements.Indices
import HiddenClass.Elements.Property

/-!
The `length` of an array as an own property. Lowering it deletes the elements beyond it from the top
down and stops at the first one that cannot be deleted.
-/

namespace HiddenClass.Elements

/-- Validates and merges a descriptor as for any other property. -/
def applyLength (desc : Descriptor) : Action Verdict := do
  let slot := (← get).elements.lengthSlot
  match slot.validate desc with
  | .accepted =>
    update fun elements => elements.setLengthSlot (slot.merge desc)
    return .accepted
  | .rejected reason => return .rejected reason

/-- The array length that a value denotes, if it denotes one. -/
def lengthOf? (value : Value) : Option Nat :=
  let number := value.toNumber
  if (Double.ofNat number.toUInt32).sameNumber number then some number.toUInt32 else none

/-- Deletes `count` indices from the top down and answers the one that refuses. -/
def deleteRange (floor : Nat) : Nat → Action (Option Nat)
  | 0 => return none
  | count + 1 => do
    match ← delete (floor + count) with
    | .accepted => deleteRange floor count
    | .rejected _ => return some (floor + count)

/-- Deletes the given indices in turn and answers the one that refuses. -/
def deleteEach : List Nat → Action (Option Nat)
  | [] => return none
  | index :: rest => do
    match ← delete index with
    | .accepted => deleteEach rest
    | .rejected _ => return some index

/-- The own indices from a length on, descending. -/
def indicesFrom (length : Nat) : Action (List Nat) := do
  let keys ← onStore (Store.keys .all)
  let own := (← get).elements.indices ++ keys.filterMap Key.index?
  return (Indices.ascending (own.filter fun index => length ≤ index)).reverse

/-- Deletes the elements between two lengths and answers the one that refuses. The elements of a
dense array never do. -/
def clear (length oldLength : Nat) : Action (Option Nat) := do
  let elements := (← get).elements
  if elements.dense then return none
  else if oldLength - length < elements.shrinkScanThreshold then
    deleteRange length (oldLength - length)
  else deleteEach (← indicesFrom length)

def settle (length : Nat) (writable : Bool) (elements : Elements) : Elements :=
  { elements.compact length with
    length, lengthWritable := elements.lengthWritable && writable }

/-- The array is left at the length above an element that stays, if there is such a length. The key
past the array indices has none above it. -/
def shrink (length oldLength : Nat) (writable : Bool) : Action Verdict := do
  match ← clear length oldLength with
  | none =>
    update (settle length writable)
    return .accepted
  | some index =>
    if index < Key.indexBound then
      update (settle (index + 1) writable)
      return .rejected .shrinkStopped
    else throw .overflow

/-- Defines `length`. The length is lowered before any element goes, and made read-only last. -/
def defineLength (desc : Descriptor) : Action Verdict := do
  if desc.lacksValue then applyLength desc
  else
    match lengthOf? desc.value with
    | none => throw (.error .invalidLength)
    | some length =>
      let before := (← get).elements
      let wanted := Descriptor.data (.ofWord length) desc.attributes
      if before.length ≤ length then applyLength wanted
      else if !before.lengthWritable then return .rejected .lengthReadOnly
      else
        let given := wanted.attributes
        match ← applyLength (wanted.withWritable true) with
        | .accepted => shrink length before.length (given.writableAbsent || given.writable)
        | .rejected reason => return .rejected reason

end HiddenClass.Elements
