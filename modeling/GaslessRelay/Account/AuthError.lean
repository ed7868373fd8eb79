import GaslessRelay.AddressText
import GaslessRelay.CodecError

/-!
Why signing, recovery or the choice of a relay path fails.
-/

namespace GaslessRelay

inductive KeyFault where
  | badHex (fault : Text.Hex.Fault)
  | notScalar
  | reported (text : String)
deriving DecidableEq, Repr

def KeyFault.message : KeyFault → String
  | badHex fault => fault.sentence
  | notScalar => "signature error"
  | reported text => text

/-- Why a signature set does not fit the policy of its account. -/
inductive PathFault where
  | notSingle (count : Nat)
  | tooFew (threshold : UInt64) (count : Nat)
  | stranger (signer : Address)
  | unsorted
  | reported (text : String)
deriving DecidableEq

def PathFault.message : PathFault → String
  | notSingle count => "single-key account needs exactly 1 signature, got " ++ toString count
  | tooFew threshold count =>
    "threshold account needs " ++ toString threshold.toNat ++ " signatures, got " ++ toString count
  | stranger signer => signer.checksum ++ " is not an owner"
  | unsorted => "signatures must be in ascending signer order"
  | reported text => text

inductive AuthError where
  | noSigners
  | invalidKey (fault : KeyFault)
  | signatureInvalid
  | invalidPath (fault : PathFault)
  | sequenceMismatch (expected live : UInt64)
  | unexpectedSigner (expected recovered : Address)
  | codec (error : CodecError)
deriving DecidableEq

def AuthError.message : AuthError → String
  | noSigners => "no signing keys provided"
  | invalidKey fault => "invalid signing key: " ++ fault.message
  | signatureInvalid => "invalid secp256k1 signature"
  | invalidPath fault => "invalid execution path: " ++ fault.message
  | sequenceMismatch expected live =>
    "sequence mismatch: request has " ++ toString expected.toNat ++ ", ledger has "
      ++ toString live.toNat
  | unexpectedSigner expected recovered =>
    "signature recovers to " ++ recovered.checksum ++ ", expected " ++ expected.checksum
  | codec error => error.message

end GaslessRelay
