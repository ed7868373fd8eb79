import GaslessRelay.Account.AuthError
import GaslessRelay.Text.Blank

/-!
Failures of the relay client. Local failures come before any ledger call; failures that the ledger
reports carry the reason word for word.
-/

namespace GaslessRelay

inductive Base64Fault where
  | badSymbol (byte : UInt8) (offset : Nat)
  | badPadding
  | badLength (length : Nat)
  | badLastSymbol (byte : UInt8) (offset : Nat)
deriving DecidableEq, Repr

def Base64Fault.message : Base64Fault → String
  | badSymbol byte offset =>
    "Invalid symbol " ++ toString byte.toNat ++ ", offset " ++ toString offset ++ "."
  | badPadding => "Invalid padding"
  | badLength length => "Invalid input length: " ++ toString length
  | badLastSymbol byte offset =>
    "Invalid last symbol " ++ toString byte.toNat ++ ", offset " ++ toString offset ++ "."

inductive ConfigFault where
  | settings
  | keyNotBase64 (fault : Base64Fault)
  | keyLength (actual : Nat)
  | storeDirectory
  | storeWrite
  | storeRename
  | storeRead
  | storeParse
  | storeTooShort
  | storeSealed
  | storedKeyMismatch (stored derived : Address)
deriving DecidableEq

/-- The wording of a cause, up to what the operating system or a parser would add. -/
def ConfigFault.message : ConfigFault → String
  | settings => "settings do not deserialise"
  | keyNotBase64 fault => "keys_encryption_key is not base64: " ++ fault.message
  | keyLength actual => "keys_encryption_key must be 32 bytes, got " ++ toString actual
  | storeDirectory => "key store directory"
  | storeWrite => "key store write"
  | storeRename => "key store rename"
  | storeRead => "key store read"
  | storeParse => "key store parse"
  | storeTooShort => "sealed key store shorter than its nonce"
  | storeSealed => "key store decryption (wrong key?): aead::Error"
  | storedKeyMismatch stored derived =>
    "stored key for " ++ stored.checksum ++ " derives " ++ derived.checksum

inductive RelayError where
  | invalidPath (fault : PathFault)
  | noSigners
  | unknownOperation (key : String)
  | invalidPayload (error : CodecError)
  | codec (error : CodecError)
  | signing (error : AuthError)
  | config (fault : ConfigFault)
  | sequenceMismatch (reason : String)
  | thresholdNotMet (reason : String)
  | alreadyRegistered (reason : String)
  | notRegistered (reason : String)
  | executionReverted (reason : String)
  | rpc (text : String)
deriving DecidableEq

namespace RelayError

def message : RelayError → String
  | invalidPath fault => "invalid execution path: " ++ fault.message
  | noSigners => "no signing keys provided"
  | unknownOperation key => "unknown operation kind: " ++ key
  | invalidPayload error => "invalid payload: " ++ error.message
  | codec error => "encoding error: " ++ error.message
  | signing error => "signing error: " ++ error.message
  | config fault => "config error: " ++ fault.message
  | sequenceMismatch reason => "sequence mismatch: " ++ reason
  | thresholdNotMet reason => "custody threshold not met: " ++ reason
  | alreadyRegistered reason => "operation type already registered: " ++ reason
  | notRegistered reason => "operation type not registered: " ++ reason
  | executionReverted reason => "execution reverted: " ++ reason
  | rpc text => "rpc error: " ++ text

inductive ProtocolRevert where
  | sequence
  | threshold
  | alreadyRegistered
  | notRegistered
deriving DecidableEq

def mentions (phrase : String) (text : List Char) : Bool :=
  Text.occursIn phrase.toList (Text.asciiLower text)

/-- What a reason means by who raised it: the relay, the custody account or the type registry. -/
def protocolRevert? (reason : String) : Option ProtocolRevert :=
  let text := Text.trimStart reason.toList
  match Text.dropStart? "Relay:".toList text with
  | some body =>
    if mentions "nonce" body || mentions "sequence" body then some .sequence
    else if mentions "threshold" body then some .threshold
    else if mentions "not registered" body then some .notRegistered
    else none
  | none =>
    match Text.dropStart? "Custody:".toList text with
    | some body => if mentions "threshold" body then some .threshold else none
    | none =>
      match Text.dropStart? "Registry: type".toList text with
      | some body =>
        if mentions "already registered" body then some .alreadyRegistered
        else if mentions "not registered" body then some .notRegistered
        else none
      | none => none

/-- The failure that a revert reason stands for; a module's reason is never a protocol failure. -/
def ofRevert (reason : String) : RelayError :=
  match protocolRevert? reason with
  | some .sequence => sequenceMismatch reason
  | some .threshold => thresholdNotMet reason
  | some .alreadyRegistered => alreadyRegistered reason
  | some .notRegistered => notRegistered reason
  | none => executionReverted reason

def isResubmittable : RelayError → Bool
  | sequenceMismatch _ => true
  | _ => false

def revertReason? : RelayError → Option String
  | sequenceMismatch reason | thresholdNotMet reason | alreadyRegistered reason
  | notRegistered reason | executionReverted reason => some reason
  | _ => none

/-- The ledger reported the failure after executing the transaction. -/
def isLedgerSurfaced (error : RelayError) : Bool := error.revertReason?.isSome

def ofAuth : AuthError → RelayError
  | .noSigners => noSigners
  | .invalidPath fault => invalidPath fault
  | .sequenceMismatch expected live =>
    sequenceMismatch (AuthError.sequenceMismatch expected live).message
  | .codec error => codec error
  | other => signing other

@[simp] theorem revertReason?_ofRevert (reason : String) :
    (ofRevert reason).revertReason? = some reason := by
  simp only [ofRevert]
  split <;> rfl

@[simp] theorem isLedgerSurfaced_ofRevert (reason : String) :
    (ofRevert reason).isLedgerSurfaced = true := by
  simp [isLedgerSurfaced]

end RelayError

end GaslessRelay
