import HiddenClass.Number.Decimal
import HiddenClass.Text.Blank

/-!
The number that a text denotes as a value: an empty text is zero, a prefix selects radix sixteen,
eight or two, `Infinity` is spelled out, and everything else is decimal or NaN.
-/

namespace HiddenClass.Literal

def digit? (radix : Nat) (c : Char) : Option Nat :=
  let value? :=
    if c.isDigit then some (c.toNat - '0'.toNat)
    else if 'a' ≤ c ∧ c ≤ 'z' then some (c.toNat - 'a'.toNat + 10)
    else if 'A' ≤ c ∧ c ≤ 'Z' then some (c.toNat - 'A'.toNat + 10)
    else none
  value?.filter (· < radix)

/-- The digits are added one at a time, with a rounding after each. -/
def radixDigits (radix : Nat) (digits : List Char) : Option Double :=
  if digits.isEmpty then none
  else digits.foldlM (fun x c => (digit? radix c).map fun d => x.appendDigit radix d) Double.zero

def isDecimalCharacter (c : Char) : Bool :=
  c.isDigit || c = '.' || c = 'e' || c = 'E' || c = '+' || c = '-'

def readTrimmed : List Char → Option Double
  | [] => some Double.zero
  | '0' :: 'x' :: digits | '0' :: 'X' :: digits => radixDigits 16 digits
  | '0' :: 'o' :: digits | '0' :: 'O' :: digits => radixDigits 8 digits
  | '0' :: 'b' :: digits | '0' :: 'B' :: digits => radixDigits 2 digits
  | text =>
    if text = "Infinity".toList ∨ text = "+Infinity".toList then some (.infinity false)
    else if text = "-Infinity".toList then some (.infinity true)
    else if text.all isDecimalCharacter then Decimal.read text
    else none

def number (text : List Char) : Double := (readTrimmed (Text.trim text)).getD .nan

end HiddenClass.Literal
