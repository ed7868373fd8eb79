/-!
Binary floating point numbers of 64 bits: rounding of exact ratios, and decimal texts of them.
-/

namespace GaslessRelay.Text

/-- The number `±mantissa · 2 ^ exponent` with a mantissa below `2 ^ 53`. -/
structure Binary64 where
  negative : Bool
  mantissa : Nat
  exponent : Int
deriving DecidableEq, Repr

namespace Binary64

/-- The quotient rounded to the nearest integer, a half to the even one. -/
def divideToEven (numerator denominator : Nat) : Nat :=
  let quotient := numerator / denominator
  let rest := numerator % denominator
  if 2 * rest < denominator then quotient
  else if denominator < 2 * rest then quotient + 1
  else quotient + quotient % 2

/-- The quotient rounded to the nearest integer, a half away from zero. -/
def divideFromZero (numerator denominator : Nat) : Nat :=
  (2 * numerator + denominator) / (2 * denominator)

def scale (numerator denominator : Nat) (exponent : Int) : Nat × Nat :=
  match exponent with
  | .ofNat power => (numerator * Nat.pow 2 power, denominator)
  | .negSucc power => (numerator, denominator * Nat.pow 2 (power + 1))

def lastPlace (numerator denominator : Nat) : Int :=
  let guess : Int := (Nat.log2 numerator : Int) - Nat.log2 denominator
  let (top, bottom) := scale numerator denominator (-guess)
  let leading := if top < bottom then guess - 1 else guess
  max (leading - 52) (-1074)

/-- The nearest number to a ratio, unless it is beyond the largest one. -/
def ofRatio? (negative : Bool) (numerator denominator : Nat) : Option Binary64 :=
  if numerator = 0 then some ⟨negative, 0, -1074⟩
  else
    let place := lastPlace numerator denominator
    let (top, bottom) := scale numerator denominator (-place)
    let mantissa := divideToEven top bottom
    let rounded : Binary64 :=
      if mantissa = Nat.pow 2 53 then ⟨negative, Nat.pow 2 52, place + 1⟩
      else ⟨negative, mantissa, place⟩
    if rounded.exponent ≤ 971 then some rounded else none

def ratio (number : Binary64) : Nat × Nat := scale number.mantissa 1 number.exponent

def isZero (number : Binary64) : Bool := number.mantissa == 0

def scaleTen (numerator denominator : Nat) (exponent : Int) : Nat × Nat :=
  match exponent with
  | .ofNat power => (numerator * Nat.pow 10 power, denominator)
  | .negSucc power => (numerator, denominator * Nat.pow 10 (power + 1))

/-- The number of decimal places before the point of a ratio: `10 ^ (n - 1) ≤ ratio < 10 ^ n`. -/
def pointPlace (numerator denominator : Nat) : Int :=
  let guess : Int :=
    ((Nat.log2 numerator : Int) - Nat.log2 denominator) * 30103 / 100000
  let atLeast (place : Int) : Bool :=
    let (top, bottom) := scaleTen numerator denominator (-place)
    bottom ≤ top
  if atLeast (guess + 1) then guess + 2
  else if atLeast guess then guess + 1
  else if atLeast (guess - 1) then guess
  else guess - 1

/-- A digit string `d₁d₂…` that stands for `0.d₁d₂… · 10 ^ point`. -/
structure Decimal where
  digits : Nat
  count : Nat
  point : Int
deriving Repr

def rounds (number : Binary64) (digits : Nat) (exponent : Int) : Bool :=
  let (top, bottom) := scaleTen digits 1 exponent
  ofRatio? number.negative top bottom == some number

/-- The decimal of `count` digits next to a number that rounds to it; of two the nearer one. -/
def decimalOf? (number : Binary64) (point : Int) (count : Nat) : Option Decimal :=
  let exponent := point - count
  let (numerator, denominator) := number.ratio
  let (top, bottom) := scaleTen numerator denominator (-exponent)
  let below := top / bottom
  let nearest := divideToEven top bottom
  let other := if nearest = below then below + 1 else below
  let candidates := [nearest, other]
  (candidates.find? fun digits => digits != 0 && rounds number digits exponent).map fun digits =>
    if digits = Nat.pow 10 count then ⟨1, 1, point + 1⟩ else ⟨digits, count, point⟩

/-- The first of the counts from `count` on, at most `limit` many, with a decimal that rounds. -/
def firstDecimal (number : Binary64) (point : Int) : (limit count : Nat) → Decimal
  | 0, count => ⟨0, count, point⟩
  | limit + 1, count =>
    match decimalOf? number point count with
    | some decimal => decimal
    | none => firstDecimal number point limit (count + 1)

def shortest (number : Binary64) : Decimal :=
  let (numerator, denominator) := number.ratio
  firstDecimal number (pointPlace numerator denominator) 17 1

def Decimal.chars (decimal : Decimal) : List Char := Nat.toDigits 10 decimal.digits

/-- Digits without a point, or with zeros before or after them, and no exponent. -/
def Decimal.positional (decimal : Decimal) : String :=
  let chars := decimal.chars
  if decimal.point ≤ 0 then
    "0." ++ String.ofList (List.replicate (-decimal.point).toNat '0' ++ chars)
  else
    let whole := decimal.point.toNat
    if chars.length ≤ whole then
      String.ofList (chars ++ List.replicate (whole - chars.length) '0')
    else String.ofList (chars.take whole) ++ "." ++ String.ofList (chars.drop whole)

def Decimal.scientific (decimal : Decimal) : String :=
  let exponent := "e" ++ toString (decimal.point - 1)
  match decimal.chars with
  | [] => "0"
  | [digit] => String.singleton digit ++ exponent
  | digit :: rest => String.singleton digit ++ "." ++ String.ofList rest ++ exponent

def sign (number : Binary64) : String := if number.negative then "-" else ""

/-- The text of a number in JSON: the fewest digits that read back, positional from `10 ^ -5` up to
below `10 ^ 16`, and always with a point or an exponent. -/
def jsonText (number : Binary64) : String :=
  if number.isZero then number.sign ++ "0.0"
  else
    let decimal := number.shortest
    let body :=
      if -5 < decimal.point ∧ decimal.point ≤ 16 then
        if (decimal.chars.length : Int) ≤ decimal.point then decimal.positional ++ ".0"
        else decimal.positional
      else decimal.scientific
    number.sign ++ body

def plainText (number : Binary64) : String :=
  if number.isZero then number.sign ++ "0" else number.sign ++ number.shortest.positional

/-- The text of a nonnegative number with `places` decimals; a half goes to the even neighbour. -/
def fixedText (places : Nat) (number : Binary64) : String :=
  let (numerator, denominator) := number.ratio
  let scaled := divideToEven (numerator * Nat.pow 10 places) denominator
  let fraction := Nat.toDigits 10 (scaled % Nat.pow 10 places)
  toString (scaled / Nat.pow 10 places) ++ "."
    ++ String.ofList (List.replicate (places - fraction.length) '0' ++ fraction)

/-- The product of a number with a power of ten that is itself rounded first. -/
def timesPowerOfTen? (number : Binary64) (power : Nat) : Option Binary64 := do
  let factor ← ofRatio? false (Nat.pow 10 power) 1
  let (top, bottom) := number.ratio
  let (factorTop, factorBottom) := factor.ratio
  ofRatio? number.negative (top * factorTop) (bottom * factorBottom)

/-- The quotient of a number by a power of ten that is itself rounded first. -/
def overPowerOfTen? (number : Binary64) (power : Nat) : Option Binary64 := do
  let factor ← ofRatio? false (Nat.pow 10 power) 1
  let (top, bottom) := number.ratio
  let (factorTop, factorBottom) := factor.ratio
  ofRatio? number.negative (top * factorBottom) (bottom * factorTop)

/-- A number divided by a power of ten in steps of at most 308 places. -/
def shrink? : (steps : Nat) → Binary64 → Nat → Option Binary64
  | 0, number, power => overPowerOfTen? number power
  | steps + 1, number, power =>
    if power ≤ 308 ∨ number.isZero then overPowerOfTen? number (min power 308)
    else do
      let next ← overPowerOfTen? number 308
      shrink? steps next (power - 308)

/-- The number `±significand · 10 ^ exponent`, rounded once for the significand and once for each
power of ten; none if it is beyond the largest one. -/
def ofDecimal? (negative : Bool) (significand : Nat) (exponent : Int) : Option Binary64 := do
  let start ← ofRatio? negative significand 1
  if start.isZero then return start
  match exponent with
  | .ofNat power => if power ≤ 308 then timesPowerOfTen? start power else none
  | .negSucc power => shrink? 4 start (power + 1)

/-- The nearest number to `±significand · 10 ^ exponent`; none if it is beyond the largest one. -/
def nearest? (negative : Bool) (significand : Nat) (exponent : Int) : Option Binary64 :=
  if 400 < exponent ∧ significand ≠ 0 then none
  else
    let (top, bottom) := scaleTen significand 1 (max exponent (-2000))
    ofRatio? negative top bottom

end Binary64

end GaslessRelay.Text
