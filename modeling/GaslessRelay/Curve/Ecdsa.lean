import GaslessRelay.Curve.Point
import GaslessRelay.Digest.Sha256

/-!
Recoverable signatures over secp256k1: deterministic signing with the lower of the two possible
values of `s`, and recovery of the signing point.
-/

namespace GaslessRelay.Curve

/-- A signing key: a scalar other than zero. -/
structure SecretKey where
  scalar : Scalar
  nonzero : scalar ≠ 0 := by decide

structure Signature where
  r : Scalar
  s : Scalar
  odd : Bool
deriving DecidableEq

namespace SecretKey

def ofNat? (number : Nat) : Option SecretKey :=
  if bound : number < groupOrder then
    if nonzero : (⟨number, bound⟩ : Scalar) ≠ 0 then some ⟨⟨number, bound⟩, nonzero⟩ else none
  else none

/-- The key that 24 to 32 bytes spell, most significant byte first. -/
def ofBytes? (bytes : Bytes) : Option SecretKey :=
  if 24 ≤ bytes.length ∧ bytes.length ≤ 32 then ofNat? bytes.toNat else none

def bytes (key : SecretKey) : Bytes := Bytes.ofNat 32 key.scalar.val

def publicPoint (key : SecretKey) : Point := .multiply key.scalar .generator

end SecretKey

/-- The 64 bytes of a point's coordinates; the neutral point has none. -/
def pointBytes? (point : Point) : Option Bytes :=
  point.affine?.map fun (x, y) => Bytes.ofNat 32 x.val ++ Bytes.ofNat 32 y.val

/-- The generator of candidate nonces: a key and a chaining value. -/
structure NonceSource where
  key : Bytes
  value : Bytes

namespace NonceSource

/-- Mixes a message into the generator under a separating byte. -/
def mix (source : NonceSource) (separator : UInt8) (message : Bytes) : NonceSource :=
  let key := Digest.hmac source.key (source.value ++ separator :: message)
  ⟨key, Digest.hmac key source.value⟩

def start (secret digest : Bytes) : NonceSource :=
  let seed := secret ++ digest
  (((⟨Bytes.zeros 32, List.replicate 32 1⟩ : NonceSource).mix 0 seed).mix 1 seed)

/-- The first candidate among the next `limit` that is a scalar other than zero. -/
def next? : (limit : Nat) → NonceSource → Option Scalar
  | 0, _ => none
  | limit + 1, source =>
    let value := Digest.hmac source.key source.value
    match SecretKey.ofNat? value.toNat with
    | some nonce => some nonce.scalar
    | none => next? limit (({ source with value } : NonceSource).mix 0 [])

end NonceSource

def isHigh (scalar : Scalar) : Bool := scalar.val > groupOrder / 2

/-- How many candidate nonces are tried before signing gives up. -/
def nonceLimit : Nat := 64

def sign? (key : SecretKey) (digest : Hash) : Option Signature := do
  let nonce ← NonceSource.next? nonceLimit (.start key.bytes (wordBytes digest))
  let (x, y) ← (Point.multiply nonce .generator).affine?
  let r : Scalar := Fin.ofNat _ x.val
  let s := inverse nonce * (Fin.ofNat _ digest.toNat + r * key.scalar)
  if r = 0 ∨ s = 0 then none
  else
    let high := isHigh s
    some ⟨r, if high then 0 - s else s, (y.val % 2 == 1) != high⟩

/-- The point whose key made a signature of a digest. -/
def recover? (digest : Hash) (signature : Signature) : Option Point := do
  if isHigh signature.s then none
  let point ← Point.lift? (Fin.ofNat _ signature.r.val) signature.odd
  let ratio := inverse signature.r
  let signer := Point.add
    (.multiply (0 - ratio * Fin.ofNat _ digest.toNat) .generator)
    (.multiply (ratio * signature.s) point)
  if signer.isNeutral then none else some signer

/-- The scalars that 64 bytes spell, if both are other than zero. -/
def scalars? (bytes : Bytes) : Option (Scalar × Scalar) := do
  let r ← SecretKey.ofNat? (Bytes.toNat (bytes.take 32))
  let s ← SecretKey.ofNat? (Bytes.toNat (bytes.drop 32))
  return (r.scalar, s.scalar)

end GaslessRelay.Curve
