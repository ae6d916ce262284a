import HiddenClass.Number.Literal
import HiddenClass.Text.Quoted
import HiddenClass.Arena

/-!
The values that properties hold, their conversion to numbers, and the two equalities: SameValue
and the finer structural one.
-/

namespace HiddenClass

/-- A function of the embedding program, known here by its name alone. -/
structure Native where
  name : String
deriving DecidableEq, Repr

inductive Value where
  | undefined
  | null
  | bool (b : Bool)
  | int (n : Int32)
  | number (x : Double)
  | text (s : String)
  | object (handle : Handle)
  | native (function : Native)
  /-- Marks a place that holds no value. -/
  | hole
deriving DecidableEq, Repr, Inhabited

namespace Value

def isHole : Value → Bool
  | .hole => true
  | _ => false

def isUndefined : Value → Bool
  | .undefined => true
  | _ => false

def isNumber : Value → Bool
  | .int _ | .number _ => true
  | _ => false

def isCallable : Value → Bool
  | .native _ => true
  | _ => false

def object? : Value → Option Handle
  | .object handle => some handle
  | _ => none

def fitsInt (n : Int) : Bool := -2147483648 ≤ n && n ≤ 2147483647

/-- An unsigned word is an integer value where it fits one. -/
def ofWord (n : Nat) : Value :=
  if fitsInt n then .int (Int32.ofInt n) else .number (.ofNat n)

/-- A double is an integer value where that loses nothing, not even the sign of zero. -/
def ofDouble (x : Double) : Value :=
  match x.toInt? with
  | some n => if fitsInt n && !(x.isZero && x.isNegative) then .int (Int32.ofInt n) else .number x
  | none => .number x

/-- Objects have no primitive value here and convert to NaN. -/
def toNumber : Value → Double
  | .null => .zero
  | .bool b => .ofNat b.toNat
  | .int n => .ofInt n.toInt
  | .number x => x
  | .text s => Literal.number s.toList
  | .undefined | .hole | .object _ | .native _ => .nan

/-- SameValue: numbers are compared as doubles, NaN equal to itself and the zeros distinct. -/
def sameValue (a b : Value) : Bool :=
  if a.isNumber && b.isNumber then a.toNumber = b.toNumber else a = b

def display : Value → String
  | .undefined => "undefined"
  | .null => "null"
  | .bool b => if b then "true" else "false"
  | .int n => toString n.toInt
  | .number x => String.ofList (Decimal.write x)
  | .text s => String.ofList (Text.quoted s.toList)
  | .object handle => s!"object({handle.label})"
  | .native function => s!"<native {function.name}>"
  | .hole => "<empty>"

end Value

end HiddenClass
