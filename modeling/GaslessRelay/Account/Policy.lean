import GaslessRelay.Account.Signature
import GaslessRelay.Request.Basic

/-!
Who must sign for an account, sets of signatures, and the relay path that a set satisfies.
-/

namespace GaslessRelay

/-- A signature with the address that it is claimed for. -/
structure SignatureEntry where
  signer : Address
  signature : Bytes
deriving DecidableEq

structure SignatureSet where
  entries : List SignatureEntry := []
deriving DecidableEq

namespace SignatureSet

/-- An entry behind all entries of signers up to its own. -/
def insertBySigner (entry : SignatureEntry) : List SignatureEntry → List SignatureEntry
  | [] => [entry]
  | first :: rest =>
    if entry.signer < first.signer then entry :: first :: rest
    else first :: insertBySigner entry rest

def ofEntries (entries : List SignatureEntry) : SignatureSet :=
  ⟨entries.foldl (fun sorted entry => insertBySigner entry sorted) []⟩

def signers (set : SignatureSet) : List Address := set.entries.map (·.signer)

def signatures (set : SignatureSet) : List Bytes := set.entries.map (·.signature)

def strictlyAscending : List Address → Bool
  | first :: second :: rest => decide (first < second) && strictlyAscending (second :: rest)
  | _ => true

/-- The signers are strictly ascending, so none appears twice. -/
def isSorted (set : SignatureSet) : Bool := strictlyAscending set.signers

end SignatureSet

inductive AccountPolicy where
  | singleKey
  | threshold (owners : List Address) (threshold : UInt64)
deriving DecidableEq

inductive RelayPath where
  | singleKey
  | threshold
deriving DecidableEq

/-- The relay path of a signature set that satisfies a policy. No threshold waives signing. -/
def AccountPolicy.selectPath (policy : AccountPolicy) (set : SignatureSet) :
    Except AuthError RelayPath :=
  let count := set.entries.length
  if count = 0 then .error .noSigners
  else
    match policy with
    | singleKey => if count = 1 then .ok .singleKey else .error (.invalidPath (.notSingle count))
    | threshold owners required =>
      if count < required.toNat then .error (.invalidPath (.tooFew required count))
      else
        match set.signers.find? (!owners.contains ·) with
        | some signer => .error (.invalidPath (.stranger signer))
        | none => if set.isSorted then .ok .threshold else .error (.invalidPath .unsorted)

namespace Account

def signAll (digest : Hash) : List Signer → Except AuthError (List SignatureEntry)
  | [] => .ok []
  | signer :: rest => do
    let signature ← signer.sign digest
    let entries ← signAll digest rest
    return ⟨signer.address, signature⟩ :: entries

def signRequest (encoded : EncodedRequest) (domain : Domain) (signers : List Signer) :
    Except AuthError SignatureSet :=
  if signers.isEmpty then .error .noSigners
  else SignatureSet.ofEntries <$> signAll (encoded.digest domain) signers

def getNonceSignature : String := "getNonce(address,uint128)"

/-- The call that reads a sender's counter on the only channel in use, number 0. -/
def getNonceCalldata (sender : Address) : Bytes :=
  Abi.encodeCall getNonceSignature [.address sender, .ofNat 0]

def checkSequence (expected live : UInt64) : Except AuthError Unit :=
  if expected = live then .ok () else .error (.sequenceMismatch expected live)

end Account

end GaslessRelay
