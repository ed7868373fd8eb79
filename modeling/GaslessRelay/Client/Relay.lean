import GaslessRelay.Account.Policy
import GaslessRelay.Client.Context
import GaslessRelay.Client.Settlement
import GaslessRelay.Request.RelayCall

/-!
Relaying of requests: assembly with the live sequence number, the relay call, submission, and one
more try with a fresh number after a sequence mismatch.
-/

namespace GaslessRelay

def EncodedRequest.relayCalldata (encoded : EncodedRequest) (policy : AccountPolicy)
    (set : SignatureSet) : Except RelayError Bytes :=
  match policy.selectPath set with
  | .error error => .error (.ofAuth error)
  | .ok .singleKey =>
    match set.signatures with
    | signature :: _ =>
      .ok (Abi.encodeCall executeSingleSignature [encoded.toAbi, .bytes signature])
    | [] => .error .noSigners
  | .ok .threshold =>
    .ok (Abi.encodeCall executeThresholdSignature
      [encoded.toAbi, .array (set.signatures.map AbiValue.bytes)])

inductive RelayState where
  | confirmed
  | reverted
deriving DecidableEq

structure RelayOutcome where
  state : RelayState
  receipt : Receipt
deriving DecidableEq

namespace RelayContext

def operation (context : RelayContext) (key : String) : Except RelayError OperationType :=
  match context.catalog.get? key with
  | some operation => .ok operation
  | none => .error (.unknownOperation key)

def sequenceNumber (context : RelayContext) (sender : Address) : ClientM UInt64 := do
  let answer ← ClientM.query
    (.call context.config.relayAddress (Account.getNonceCalldata sender))
  let value ← ClientM.decoded (Abi.decodeUint answer)
  if value.toNat < UInt64.size then return UInt64.ofNat value.toNat
  else ClientM.known (.error (.codec (.invalidAbi (.sequenceRange value.toNat))))

def assemble (context : RelayContext) (key : String) (sender : Address)
    (payload : List (String × Json)) : ClientM Request := do
  let operation ← ClientM.known (context.operation key)
  let draft : Request := { operationKey := operation.key, sender, sequence := 0, payload }
  let _ ← ClientM.known ((draft.bodyValues operation).mapError .invalidPayload)
  return { draft with sequence := ← context.sequenceNumber sender }

def encode (context : RelayContext) (request : Request) : Except RelayError EncodedRequest := do
  let operation ← context.operation request.operationKey
  (request.encode operation).mapError .invalidPayload

/-- Submits a signed request and waits for it; a revert is an outcome. -/
def dispatch (context : RelayContext) (request : Request) (policy : AccountPolicy)
    (set : SignatureSet) : ClientM RelayOutcome := do
  let encoded ← ClientM.known (context.encode request)
  let calldata ← ClientM.known (encoded.relayCalldata policy set)
  ClientM.bump .relaysSubmitted
  let receipt ← Settlement.submitAndConfirm context.config.relayAddress calldata
    context.config.effectiveConfirmations
  if receipt.success then
    ClientM.bump .relaysConfirmed
    return ⟨.confirmed, receipt⟩
  else
    ClientM.bump .relaysReverted
    return ⟨.reverted, receipt⟩

/-- Submits a signed request and waits for it; a revert is a failure. -/
def submit (context : RelayContext) (request : Request) (policy : AccountPolicy)
    (set : SignatureSet) : ClientM Receipt := do
  let outcome ← context.dispatch request policy set
  match outcome.receipt.result with
  | .ok receipt => return receipt
  | .error error =>
    if error.isResubmittable then ClientM.bump .sequenceMismatches
    ClientM.known (.error error)

def signAndSubmit (context : RelayContext) (key : String) (sender : Address)
    (payload : List (String × Json)) (policy : AccountPolicy) (signers : List Signer) :
    ClientM Receipt := do
  let request ← context.assemble key sender payload
  let encoded ← ClientM.known (context.encode request)
  let set ← ClientM.known
    ((Account.signRequest encoded context.domain signers).mapError .ofAuth)
  context.submit request policy set

/-- Relays a payload. After a sequence mismatch the request is built once more. -/
def relay (context : RelayContext) (key : String) (sender : Address)
    (payload : List (String × Json)) (policy : AccountPolicy) (signers : List Signer) :
    ClientM Receipt := do
  if signers.isEmpty then ClientM.known (.error .noSigners)
  else
    match ← ClientM.attempt (context.signAndSubmit key sender payload policy signers) with
    | .ok receipt => return receipt
    | .error error =>
      if error.isResubmittable then context.signAndSubmit key sender payload policy signers
      else ClientM.known (.error error)

end RelayContext

end GaslessRelay
