/-!
Property keys: array indices, and names by their number in a table.
-/

namespace HiddenClass

inductive Key where
  | index (n : Nat)
  | named (id : Nat)
deriving DecidableEq, Repr, Inhabited

namespace Key

/-- The name `length` comes first in every table. -/
def length : Key := .named 0

/-- Array indices are the naturals below this bound. -/
def indexBound : Nat := 4294967295

def index? : Key → Option Nat
  | .index n => some n
  | .named _ => none

/-- Indices come before names, and each kind is ordered by its number. -/
def le : Key → Key → Bool
  | .index m, .index n => m ≤ n
  | .index _, .named _ => true
  | .named _, .index _ => false
  | .named a, .named b => a ≤ b

def label : Key → String
  | .index n => s!"#{n}"
  | .named id => s!"sym{id}"

/-- Reads the decimal form of an array index, which has no sign and no leading zero. -/
def readIndex (text : List Char) : Option Nat :=
  if text.isEmpty || 10 < text.length || !text.all Char.isDigit then none
  else if 1 < text.length && text.head? = some '0' then none
  else
    let n := text.foldl (fun n c => 10 * n + (c.toNat - '0'.toNat)) 0
    if n < indexBound then some n else none

end Key

end HiddenClass
