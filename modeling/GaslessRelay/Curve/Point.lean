import GaslessRelay.Bytes

/-!
The curve secp256k1: `y² = x³ + 7` over the integers modulo a prime, with its group of points.
-/

namespace GaslessRelay.Curve

def fieldPrime : Nat := Nat.pow 2 256 - Nat.pow 2 32 - 977

/-- The number of points, and the modulus of the scalars. -/
def groupOrder : Nat := 0xfffffffffffffffffffffffffffffffebaaedce6af48a03bbfd25e8cd0364141

/-- A number other than zero, which has remainders. -/
abbrev Modulus (number : Nat) : Prop := @NeZero Nat Zero.ofOfNat0 number

instance : Modulus fieldPrime := ⟨by decide⟩

instance : Modulus groupOrder := ⟨by decide⟩

abbrev Field := Fin fieldPrime

/-- A multiple of the base point. -/
abbrev Scalar := Fin groupOrder

/-- The lowest `width` bits of a number, most significant bit first. -/
def bits : (width : Nat) → Nat → List Bool
  | 0, _ => []
  | width + 1, number => number.testBit width :: bits width number

/-- The power of `base` whose 256-bit exponent is `exponent`. -/
def power {modulus : Nat} [Modulus modulus] (base : Fin modulus) (exponent : Nat) : Fin modulus :=
  (bits 256 exponent).foldl
    (fun result bit => if bit then result * result * base else result * result) 1

def inverse {modulus : Nat} [Modulus modulus] (number : Fin modulus) : Fin modulus :=
  power number (modulus - 2)

/-- A root of `number`, if it is a square: the prime leaves the remainder 3 when divided by 4. -/
def squareRoot? (number : Field) : Option Field :=
  let root := power number ((fieldPrime + 1) / 4)
  if root * root = number then some root else none

/-- A point by the ratios `x / z²` and `y / z³`; `z = 0` is the neutral point. -/
structure Point where
  x : Field
  y : Field
  z : Field

namespace Point

def neutral : Point := ⟨1, 1, 0⟩

def generator : Point where
  x := Fin.ofNat _ 0x79be667ef9dcbbac55a06295ce870b07029bfcdb2dce28d959f2815b16f81798
  y := Fin.ofNat _ 0x483ada7726a3c4655da4fbfc0e1108a8fd17b448a68554199c47d08ffb10d4b8
  z := 1

def isNeutral (point : Point) : Bool := point.z == 0

def double (point : Point) : Point :=
  let a := point.x * point.x
  let b := point.y * point.y
  let c := b * b
  let d := 2 * ((point.x + b) * (point.x + b) - a - c)
  let e := 3 * a
  let x := e * e - 2 * d
  ⟨x, e * (d - x) - 8 * c, 2 * point.y * point.z⟩

def add (left right : Point) : Point :=
  if left.isNeutral then right
  else if right.isNeutral then left
  else
    let leftSquare := left.z * left.z
    let rightSquare := right.z * right.z
    let leftX := left.x * rightSquare
    let rightX := right.x * leftSquare
    let leftY := left.y * right.z * rightSquare
    let rightY := right.y * left.z * leftSquare
    let width := rightX - leftX
    let rise := rightY - leftY
    if width = 0 then
      if rise = 0 then double left else neutral
    else
      let square := width * width
      let cube := width * square
      let base := leftX * square
      let x := rise * rise - cube - 2 * base
      ⟨x, rise * (base - x) - leftY * cube, width * left.z * right.z⟩

def multiply (scalar : Scalar) (point : Point) : Point :=
  (bits 256 scalar.val).foldl
    (fun sum bit => if bit then add (double sum) point else double sum) neutral

/-- The coordinates of a point other than the neutral one. -/
def affine? (point : Point) : Option (Field × Field) :=
  if point.isNeutral then none
  else
    let ratio := inverse point.z
    let square := ratio * ratio
    some (point.x * square, point.y * square * ratio)

/-- The point with the given first coordinate whose second one is odd or even as asked. -/
def lift? (x : Field) (odd : Bool) : Option Point := do
  let root ← squareRoot? (x * x * x + 7)
  let y := if (root.val % 2 == 1) == odd then root else 0 - root
  if (y.val % 2 == 1) == odd then some ⟨x, y, 1⟩ else none

end Point

end GaslessRelay.Curve
