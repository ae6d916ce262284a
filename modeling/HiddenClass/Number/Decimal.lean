import HiddenClass.Number.Double

/-!
Decimal text of doubles. Reading rounds the exact decimal value once. Writing uses the fewest
digits that read back, always in positional notation.
-/

namespace HiddenClass.Decimal

def digitValue (c : Char) : Nat := c.toNat - '0'.toNat

def ofDigits (digits : List Char) : Nat :=
  digits.foldl (fun n c => 10 * n + digitValue c) 0

/-- The double nearest to `digits * 10 ^ exponent`. The two early answers keep the powers of ten
small: past them every decimal overflows, respectively rounds to zero. -/
def nearest (negative : Bool) (digits : Nat) (exponent : Int) : Double :=
  let size : Int := (Nat.toDigits 10 digits).length
  if digits = 0 then .signedZero negative
  else if 310 < size + exponent then .infinity negative
  else if size + exponent < -330 then .signedZero negative
  else match exponent with
    | .ofNat up => .ofQuotient negative (digits * Nat.pow 10 up) 1
    | .negSucc down => .ofQuotient negative digits (Nat.pow 10 (down + 1))

/-- A possibly signed run of at least one digit. -/
def readInteger (text : List Char) : Option Int :=
  let (negative, digits) := match text with
    | '-' :: rest => (true, rest)
    | '+' :: rest => (false, rest)
    | rest => (false, rest)
  if digits.isEmpty || !digits.all Char.isDigit then none
  else some (Double.signed negative (ofDigits digits))

def readExponent : List Char → Option Int
  | [] => some 0
  | c :: rest => if c = 'e' ∨ c = 'E' then readInteger rest else none

/-- Digits with an optional point and an optional exponent; at least one digit stands beside the
point. -/
def readMagnitude (negative : Bool) (text : List Char) : Option Double :=
  let whole := text.takeWhile Char.isDigit
  let (places, rest) := match text.dropWhile Char.isDigit with
    | '.' :: rest => (rest.takeWhile Char.isDigit, rest.dropWhile Char.isDigit)
    | rest => ([], rest)
  if whole.isEmpty && places.isEmpty then none
  else (readExponent rest).map fun exponent =>
    nearest negative (ofDigits (whole ++ places)) (exponent - places.length)

/-- The names of the values that have no digits, in any mix of cases. -/
def readName (negative : Bool) (text : List Char) : Option Double :=
  let name := text.map Char.toLower
  if name = "nan".toList then some .nan
  else if name = "inf".toList ∨ name = "infinity".toList then some (.infinity negative)
  else none

def readUnsigned (negative : Bool) (text : List Char) : Option Double :=
  readMagnitude negative text <|> readName negative text

def read : List Char → Option Double
  | '-' :: rest => readUnsigned true rest
  | '+' :: rest => readUnsigned false rest
  | text => readUnsigned false text

/-- A positive double and the interval of reals that round to it, over one denominator. -/
structure Interval where
  low : Nat
  value : Nat
  high : Nat
  den : Nat
  /-- The ends round to the double too when its mantissa is even. -/
  closed : Bool
  /-- The value is below ten to this power. -/
  top : Int

/-- The neighbour below a power of two is only half as far away as the one above it. -/
def interval (exponent : Fin 2047) (fraction : Fin 4503599627370496) : Interval :=
  let m := Double.mantissa exponent fraction
  let below := if fraction.val = 0 ∧ 1 < exponent.val then 1 else 2
  let (up, down) := match Double.scale exponent with
    | .ofNat up => (up, 0)
    | .negSucc down => (0, down + 1)
  { low := (4 * m - below) <<< up
    value := (4 * m) <<< up
    high := (4 * m + 2) <<< up
    den := 4 <<< down
    closed := m % 2 = 0
    top := (((m.log2 : Int) + 1 + Double.scale exponent) * 30103) / 100000 + 2 }

/-- The multiple of `10 ^ place` that is nearest to the value among its two neighbours on that
grid, if one of them reads back. Of two equally near ones the larger is taken. -/
def Interval.onGrid (i : Interval) (place : Int) : Option Nat :=
  let (up, down) := match place with
    | .ofNat up => (Nat.pow 10 up, 1)
    | .negSucc down => (1, Nat.pow 10 (down + 1))
  let unit := i.den * up
  let q := i.value * down / unit
  let rest := i.value * down % unit
  let within (a b : Nat) : Bool := if i.closed then a ≤ b else a < b
  let lower := within (i.low * down) (q * unit)
  let upper := within ((q + 1) * unit) (i.high * down)
  if lower && (!upper || 2 * rest < unit) then some q
  else if upper then some (q + 1)
  else none

/-- The coarsest grid that holds a number reading back. Seventeen digits always suffice, and the
bound on the leading digit is off by at most two places. -/
def Interval.shortest (i : Interval) : Nat × Int :=
  ((List.range 20).findSome? fun (step : Nat) =>
    (i.onGrid (i.top - step)).map fun digits => (digits, i.top - step)).getD (0, 0)

/-- Positional notation of `digits * 10 ^ place`. -/
def positional (digits : Nat) (place : Int) : List Char :=
  let text := Nat.toDigits 10 digits
  match place with
  | .ofNat up => text ++ List.replicate up '0'
  | .negSucc down =>
    let places := down + 1
    let padded := List.replicate (places + 1 - text.length) '0' ++ text
    padded.take (padded.length - places) ++ '.' :: padded.drop (padded.length - places)

def sign (negative : Bool) : List Char := if negative then ['-'] else []

def write : Double → List Char
  | .nan => "NaN".toList
  | .infinity negative => sign negative ++ "inf".toList
  | .finite negative exponent fraction =>
    if exponent.val = 0 ∧ fraction.val = 0 then sign negative ++ ['0']
    else
      let (digits, place) := (interval exponent fraction).shortest
      sign negative ++ positional digits place

end HiddenClass.Decimal
