/-!
Binary64 numbers, held so that each value has exactly one representation. Equality of `Double`
therefore identifies every NaN and separates the two zeros. All operations are exact integer
arithmetic: a conversion to a double rounds the exact quotient once, to the nearest double with
ties to the even mantissa.
-/

namespace HiddenClass

/-- The exponent field of a finite number never holds the all-ones pattern. -/
inductive Double where
  | nan
  | infinity (negative : Bool)
  | finite (negative : Bool) (exponent : Fin 2047) (fraction : Fin 4503599627370496)
deriving DecidableEq, Repr, Inhabited

namespace Double

def signedZero (negative : Bool) : Double := .finite negative 0 0

def zero : Double := signedZero false

/-- The implicit leading bit is present exactly when the exponent field is not zero. -/
def mantissa (exponent : Fin 2047) (fraction : Fin 4503599627370496) : Nat :=
  if exponent.val = 0 then fraction.val else 4503599627370496 + fraction.val

/-- A finite number is its mantissa times two to this power. -/
def scale (exponent : Fin 2047) : Int := max (exponent.val : Int) 1 - 1075

def isFinite : Double → Bool
  | .finite .. => true
  | _ => false

def isNegative : Double → Bool
  | .nan => false
  | .infinity negative => negative
  | .finite negative .. => negative

def isZero : Double → Bool
  | .finite _ exponent fraction => exponent.val = 0 && fraction.val = 0
  | _ => false

/-- Numeric equality: NaN equals nothing and the two zeros are equal. -/
def sameNumber : Double → Double → Bool
  | .nan, _ => false
  | x, y => x = y || (x.isZero && y.isZero)

def signed (negative : Bool) (n : Nat) : Int := if negative then -(n : Int) else n

/-- The integer part, toward zero, of a finite number. -/
def truncate : Double → Option Int
  | .finite negative exponent fraction =>
    let m := mantissa exponent fraction
    some (signed negative (match scale exponent with
      | .ofNat up => m <<< up
      | .negSucc down => m >>> (down + 1)))
  | _ => none

/-- Consecutive magnitudes are consecutive naturals when the exponent field is written above the
fraction, so a mantissa that rounds up to the next power of two needs no separate case. -/
def ofMagnitude (negative : Bool) (magnitude : Nat) : Double :=
  if h : magnitude / 4503599627370496 < 2047 then
    .finite negative ⟨magnitude / 4503599627370496, h⟩
      ⟨magnitude % 4503599627370496, Nat.mod_lt _ (by decide)⟩
  else .infinity negative

/-- The integer nearest to a quotient; a tie goes to the even neighbour. -/
def nearestQuotient (num den : Nat) : Nat :=
  let q := num / den
  let twice := 2 * (num % den)
  if twice < den then q
  else if den < twice then q + 1
  else q + q % 2

/-- The floor of the binary logarithm of a positive quotient. -/
def quotientLog (num den : Nat) : Int :=
  let guess : Int := (num.log2 : Int) - den.log2
  let reached : Bool := match guess with
    | .ofNat up => den <<< up ≤ num
    | .negSucc down => den ≤ num <<< (down + 1)
  if reached then guess else guess - 1

/-- The double nearest to a quotient, ties to the even mantissa. What is too large for a double
becomes an infinity. -/
def ofQuotient (negative : Bool) (num den : Nat) : Double :=
  if num = 0 then signedZero negative
  else
    let unit := max (quotientLog num den - 52) (-1074)
    let m := match unit with
      | .ofNat up => nearestQuotient num (den <<< up)
      | .negSucc down => nearestQuotient (num <<< (down + 1)) den
    ofMagnitude negative ((unit + 1074).toNat * 4503599627370496 + m)

def ofNat (n : Nat) : Double := ofQuotient false n 1

def ofInt (n : Int) : Double := ofQuotient (n < 0) n.natAbs 1

/-- The whole number that a double denotes; a negative zero denotes zero. -/
def toInt? (x : Double) : Option Int :=
  match x.truncate with
  | some n => if (ofInt n).sameNumber x then some n else none
  | none => none

/-- The integer part modulo two to the thirty-second; zero for NaN and the infinities. -/
def toUInt32 (x : Double) : Nat :=
  match x.truncate with
  | some n => (n % 4294967296).toNat
  | none => 0

/-- One more digit at the end of a literal in the given radix. -/
def appendDigit (radix digit : Nat) : Double → Double
  | .finite negative exponent fraction =>
    let m := mantissa exponent fraction
    match scale exponent with
    | .ofNat up => ofQuotient negative ((m <<< up) * radix + digit) 1
    | .negSucc down => ofQuotient negative (m * radix + digit <<< (down + 1)) (1 <<< (down + 1))
  | x => x

/-- The integer part of the product with a natural number, toward zero. -/
def scaledFloor (factor : Nat) : Double → Nat
  | .finite _ exponent fraction =>
    let m := mantissa exponent fraction * factor
    match scale exponent with
    | .ofNat up => m <<< up
    | .negSucc down => m >>> (down + 1)
  | _ => 0

/-- Reads the interchange format: sign, exponent and fraction, from the top bit down. -/
def ofBits (bits : Nat) : Double :=
  let exponent := bits / 4503599627370496 % 2048
  let negative := bits / 9223372036854775808 % 2 = 1
  if exponent = 2047 ∧ bits % 4503599627370496 ≠ 0 then .nan
  else ofMagnitude negative (bits % 9223372036854775808)

/-- The interchange format of every value but NaN, which has many. -/
def toBits? : Double → Option Nat
  | .nan => none
  | .infinity negative => some (negative.toNat * 9223372036854775808 + 2047 * 4503599627370496)
  | .finite negative exponent fraction =>
    some (negative.toNat * 9223372036854775808 + exponent.val * 4503599627370496 + fraction.val)

end Double

end HiddenClass
