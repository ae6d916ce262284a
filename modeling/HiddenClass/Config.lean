import HiddenClass.Number.Decimal
import HiddenClass.Text.Blank

/-!
The tunables of a heap, and how sizes are read from the environment.
-/

namespace HiddenClass

structure Config where
  /-- Array elements at indices below this bound are held contiguously. -/
  maxVectorSize : Nat := 10000
  /-- From this distance on, shortening a sparse array visits the existing indices only. -/
  shrinkScanThreshold : Nat := 16777216
  /-- The least number of slots that an object reserves. -/
  initialSlotCapacity : Nat := 8
deriving DecidableEq, Repr

namespace Config

def wordMax : Nat := 4294967295

def sizeMax : Nat := 18446744073709551615

/-- A trailing `b` after at least one other character has no meaning of its own. -/
def dropByteMark (text : List Char) : List Char :=
  match text.reverse with
  | 'b' :: c :: rest | 'B' :: c :: rest => (c :: rest).reverse
  | _ => text

/-- Takes a binary multiple off the end. -/
def takeFactor (text : List Char) : List Char × Nat :=
  match text.reverse with
  | 'g' :: rest | 'G' :: rest => (rest.reverse, 1073741824)
  | 'm' :: rest | 'M' :: rest => (rest.reverse, 1048576)
  | 'k' :: rest | 'K' :: rest => (rest.reverse, 1024)
  | _ => (text, 1)

/-- A positive size: a decimal with an optional multiple, cut to a whole number and to the largest
machine word. -/
def readSize (text : List Char) : Option Nat :=
  let (digits, factor) := takeFactor (dropByteMark (Text.trim text))
  match Decimal.read (Text.trim digits) with
  | some x =>
    let size := min (x.scaledFloor factor) sizeMax
    if x.isFinite && !x.isNegative && size != 0 then some size else none
  | none => none

def withMaxVectorSize (config : Config) (size : Nat) : Config :=
  { config with maxVectorSize := max size 1 }

def withShrinkScanThreshold (config : Config) (threshold : Nat) : Config :=
  { config with shrinkScanThreshold := max threshold 1 }

def withInitialSlotCapacity (config : Config) (capacity : Nat) : Config :=
  { config with initialSlotCapacity := max capacity 1 }

def maxVectorSizeName (program : String) : String := program ++ "_MAX_VECTOR_SIZE"

def shrinkScanThresholdName (program : String) : String := program ++ "_SHRINK_SCAN_THRESHOLD"

def slotCapacityName (program : String) : String := program ++ "_SLOT_CAPACITY"

/-- The environment variables of a program, whose names start with its own. -/
def variableNames (program : String) : List String :=
  [maxVectorSizeName program, shrinkScanThresholdName program, slotCapacityName program]

/-- The defaults, overridden by the variables of a program. What is no positive size is ignored. -/
def ofEnvironment (program : String) (variableText : String → Option String) : Config :=
  let size (name : String) : Option Nat :=
    (variableText name).bind fun text => readSize text.toList
  let word (name : String) : Option Nat := (size name).map fun n => min n wordMax
  let defaults : Config := {}
  { maxVectorSize := (word (maxVectorSizeName program)).getD defaults.maxVectorSize
    shrinkScanThreshold :=
      (word (shrinkScanThresholdName program)).getD defaults.shrinkScanThreshold
    initialSlotCapacity := (size (slotCapacityName program)).getD defaults.initialSlotCapacity }

end Config

end HiddenClass
