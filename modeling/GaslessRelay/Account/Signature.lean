import GaslessRelay.Account.AuthError
import GaslessRelay.Curve.Ecdsa

/-!
Signatures of 65 bytes, the signing keys that make them, and the recovery of a signer's address.
-/

namespace GaslessRelay.Account

/-- The bytes of a signature: both scalars and the recovery byte. -/
def signatureLength : Nat := 65

def signatureParts (signature : Bytes) : Except CodecError (Bytes × UInt8) :=
  if signature.length = signatureLength then
    match signature.getLast? with
    | some 0 | some 27 => .ok (signature.take 64, 0)
    | some 1 | some 28 => .ok (signature.take 64, 1)
    | some other => .error (.invalidSignature (.recoveryByte other))
    | none => .error (.invalidSignature (.wrongLength 0))
  else .error (.invalidSignature (.wrongLength signature.length))

def signatureBytes (scalars : Bytes) (recovery : UInt8) : Bytes :=
  scalars ++ [27 + (recovery &&& 1)]

/-- The 64 bytes of an uncompressed public key, with or without the byte `04` before them. -/
def keyBytes (raw : Bytes) : Except CodecError Bytes :=
  match raw with
  | 4 :: rest =>
    if rest.length = 64 then .ok rest
    else if raw.length = 64 then .ok raw
    else .error (.invalidSignature .badKey)
  | _ => if raw.length = 64 then .ok raw else .error (.invalidSignature .badKey)

/-- The address of a public key: the last twenty bytes of its digest. -/
def keyAddress (key : Bytes) : Address := (Digest.keccak256 key).setWidth 160

def pointAddress (point : Curve.Point) : Except AuthError Address :=
  match Curve.pointBytes? point with
  | some bytes => .ok (keyAddress bytes)
  | none => .error (.codec (.invalidSignature .badKey))

def recoverSigner (digest : Hash) (signature : Bytes) : Except AuthError Address :=
  match signatureParts signature with
  | .error error => .error (.codec error)
  | .ok (scalars, recovery) =>
    match Curve.scalars? scalars with
    | none => .error .signatureInvalid
    | some (r, s) =>
      match Curve.recover? digest ⟨r, s, recovery == 1⟩ with
      | none => .error .signatureInvalid
      | some point => pointAddress point

def verifySignature (digest : Hash) (signature : Bytes) (expected : Address) :
    Except AuthError Unit := do
  let recovered ← recoverSigner digest signature
  if recovered = expected then return ()
  else .error (.unexpectedSigner expected recovered)

end GaslessRelay.Account

namespace GaslessRelay

structure Signer where
  key : Curve.SecretKey
  address : Address

namespace Signer

def ofKey (key : Curve.SecretKey) : Except AuthError Signer := do
  return ⟨key, ← Account.pointAddress key.publicPoint⟩

def ofBytes (secret : Bytes) : Except AuthError Signer :=
  match Curve.SecretKey.ofBytes? secret with
  | some key => ofKey key
  | none => .error (.invalidKey .notScalar)

/-- The signer whose key the digits spell, with or without `0x` before them. -/
def ofHex (secret : String) : Except AuthError Signer :=
  let digits := match Bytes.ofString secret with
    | 48 :: 120 :: digits => digits
    | digits => digits
  match Text.Hex.decode digits with
  | .ok bytes => ofBytes bytes
  | .error fault => .error (.invalidKey (.badHex fault))

def sign (signer : Signer) (digest : Hash) : Except AuthError Bytes :=
  match Curve.sign? signer.key digest with
  | some signature =>
    .ok (Account.signatureBytes
      (Bytes.ofNat 32 signature.r.val ++ Bytes.ofNat 32 signature.s.val)
      (if signature.odd then 1 else 0))
  | none => .error .signatureInvalid

end Signer

end GaslessRelay
