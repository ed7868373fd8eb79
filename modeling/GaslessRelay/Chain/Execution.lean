import GaslessRelay.Chain.State
import GaslessRelay.Client.Custody
import GaslessRelay.Client.Registration
import GaslessRelay.Dispatch.Upgrade
import GaslessRelay.Request.RelayCall

/-!
Execution of calldata on the chain: relay calls, the registry and the dispatch table behind the
relay, and proposals of the custody account, which may hold further calls.
-/

namespace GaslessRelay.Chain

open Machine (Run checked product room sum)

def decoded {α : Type} (result : Except CodecError α) : Except Revert α :=
  result.mapError .malformed

def reverting {α : Type} (result : Except Revert α) : Except Halt α := result.mapError .reverted

def splitSelector (data : Bytes) : Except Revert (Selector × Bytes) :=
  if data.length < 4 then .error .shortCalldata
  else .ok (selectorOfBytes (data.take 4), data.drop 4)

/-- The signers of a digest are strictly ascending members of `owners` above `last`. -/
def checkOwners (digest : Hash) (owners : List Address) : (last : Address) → List Bytes →
    Except Revert Unit
  | _, [] => .ok ()
  | last, signature :: rest => do
    let signer ← (Account.recoverSigner digest signature).mapError .unrecoverable
    -- A signer that appears twice is not above itself.
    if signer ≤ last ∨ !owners.contains signer then .error .invalidSignature
    else checkOwners digest owners signer rest

/-- The signatures of a relay call authorise its digest for its sender. -/
def checkSignatures (state : State) (call : RelayCall) (digest : Hash) : Except Revert Unit :=
  if call.thresholdPath then
    match state.ownerSets.get? call.request.sender with
    | none => .error .noOwnerSet
    | some set => do
      checkOwners digest set.owners 0 call.signatures
      if call.signatures.length < set.threshold.toNat then .error .thresholdNotMet
  else
    match call.signatures with
    | [] => .error .invalidSignature
    | signature :: _ =>
      match Account.recoverSigner digest signature with
      | .ok signer => if signer = call.request.sender then .ok () else .error .invalidSignature
      | .error _ => .error .invalidSignature

def executeRelay (contracts : Contracts) (state : State) (call : RelayCall) :
    Except Revert State := do
  let request := call.request
  if !state.registered.contains request.typeHash then .error .operationNotRegistered
  match contracts.catalog.byTypeHash? request.typeHash with
  | none => .error .operationNotRegistered
  | some operation =>
    let structHash ← decoded (request.structHash operation)
    let digest := TypedData.signingDigest contracts.domain.separator structHash
    let live := state.nonce request.sender
    if request.nonce.toNat ≠ live.toNat then .error .wrongNonce
    checkSignatures state call digest
    match state.moduleRevert with
    | some reason => .error (.module reason)
    | none =>
      return { state with
        nonces := state.nonces.insert request.sender (live + 1)
        executed := state.executed ++ [(operation.key, request.sender)] }

def executeRegister (state : State) (arguments : Bytes) : Except Revert State := do
  match ← decoded (Abi.decode [.string, .string, .address, .fixedBytes 4] arguments) with
  | [_, .string typeString, _, _] =>
    let typeHash := Digest.keccakText typeString
    if state.registered.contains typeHash then .error .alreadyRegistered
    else return { state with registered := state.registered.insert typeHash typeString }
  | _ => .error .malformedTypeString

def executeUnregister (state : State) (arguments : Bytes) : Except Revert State := do
  match ← decoded (Abi.decode [.fixedBytes 32] arguments) with
  | [.fixedBytes typeHash] =>
    if state.registered.contains typeHash then
      return { state with registered := state.registered.erase typeHash }
    else .error .notRegistered
  | _ => .error .malformedTypeHash

structure WireEdit where
  target : Address
  action : Nat
  selectors : List Selector
deriving DecidableEq

def selectorsOf : List AbiValue → List Selector
  | [] => []
  | .fixedBytes word :: rest => word.extractLsb' 224 32 :: selectorsOf rest
  | _ :: rest => selectorsOf rest

def editAt (arguments : Bytes) (place : Nat) : Run WireEdit := do
  let target ← checked (Abi.addressAt arguments place)
  let action ← checked (Abi.decodeAt arguments (.uint 8) (← sum place 32))
  let relative ← checked (Abi.offsetAt arguments (← sum place 64))
  let selectors ←
    checked (Abi.decodeAt arguments (.array (.fixedBytes 4)) (← sum place relative))
  match action, selectors with
  | .uint action, .array items => return ⟨target, action.toNat, selectorsOf items⟩
  | _, _ => Machine.refuse .malformedEdit

/-- The edits with the indices from `index` on, `count` of them; their offsets stand from `base` on
and count from there. -/
def editsFrom (arguments : Bytes) (base : Nat) : (count index : Nat) → Run (List WireEdit)
  | 0, _ => .ok []
  | count + 1, index => do
    let relative ← checked (Abi.offsetAt arguments (← sum base (← product index 32)))
    let edit ← editAt arguments (← sum base relative)
    let rest ← editsFrom arguments base count (index + 1)
    return edit :: rest

/-- The bytes that an edit takes up in memory. -/
def editSize : Nat := 48

/-- The edits in the first argument of a dispatch call. There is to be room for all of them before
the first one is read, however many the data says they are. -/
def decodeEdits (arguments : Bytes) : Run (List WireEdit) := do
  let place ← checked (Abi.offsetAt arguments 0)
  let count ← checked (Abi.offsetAt arguments place)
  let base ← sum place 32
  room editSize count
  editsFrom arguments base count 0

def applyEdit (target : Address) (action : Nat) (table : Table 32 Address) (selector : Selector) :
    Except Revert (Table 32 Address) :=
  let present := table.contains selector
  match action with
  | 0 => if present then .error (.selectorExists selector) else .ok (table.insert selector target)
  | 1 => if present then .ok (table.insert selector target) else .error (.selectorMissing selector)
  | 2 => if present then .ok (table.erase selector) else .error (.selectorMissing selector)
  | number => .error (.badAction number)

def applyEdits (table : Table 32 Address) (edits : List WireEdit) :
    Except Revert (Table 32 Address) :=
  edits.foldlM (fun table edit => edit.selectors.foldlM (applyEdit edit.target edit.action) table)
    table

def executeEdits (state : State) (arguments : Bytes) : Except Halt State := do
  let edits ← (decodeEdits arguments).mapError Halt.ofStop
  return { state with dispatch := ← reverting (applyEdits state.dispatch edits) }

abbrev Nested := State → (sender target : Address) → Bytes → Except Halt State

def executeBatch (contracts : Contracts) (nested : Nested) (state : State)
    (operations : List BatchOperation) : Except Halt State :=
  operations.foldlM
    (fun state operation => nested state contracts.custody operation.target operation.payload) state

/-- The calls that a proposal of the custody account holds: a direct one, or a batch for the
helper. -/
def proposedCalls (contracts : Contracts) (arguments : Bytes) :
    Except Revert (List BatchOperation) := do
  match ← decoded (Abi.decode [.address, .bytes, .uint 8] arguments) with
  | [.address target, .bytes data, .uint mode] =>
    if mode.toNat = BatchMode.direct.byte.toNat then .ok [⟨.direct, target, data⟩]
    else if target ≠ contracts.multiSend then .error .delegateTarget
    else
      let (selector, inner) ← splitSelector data
      if selector ≠ Abi.functionSelector Batch.multiSendSignature then .error .unknownBatchFunction
      else
        match ← decoded (Abi.decode [.bytes] inner) with
        | [.bytes blob] => decoded (Batch.decode blob)
        | _ => .error .malformedBlob
  | _ => .error .malformedProposal

def executeProposal (contracts : Contracts) (nested : Nested) (state : State)
    (arguments : Bytes) : Except Halt State := do
  executeBatch contracts nested state (← reverting (proposedCalls contracts arguments))

/-- Executes a call of the relay by someone who is not relayed for. -/
def executeOwned (state : State) (selector : Selector) (arguments : Bytes) :
    Except Halt State :=
  if selector = Abi.functionSelector Registration.registerSignature then
    reverting (executeRegister state arguments)
  else if selector = Abi.functionSelector Registration.unregisterSignature then
    reverting (executeUnregister state arguments)
  else if selector = Abi.functionSelector Dispatch.applyEditsSignature then
    executeEdits state arguments
  else .error (.reverted .unknownFunction)

/-- Executes calldata whose calls nest less than `limit` deep. -/
def executeWithin (contracts : Contracts) : (limit : Nat) → Nested
  | 0, _, _, _, _ => .error (.reverted .nestedTooDeep)
  | limit + 1, state, sender, target, data => do
    let (selector, arguments) ← reverting (splitSelector data)
    if target = contracts.custody ∧ selector = Abi.functionSelector Custody.proposeSignature then
      executeProposal contracts (executeWithin contracts limit) state arguments
    else if target ≠ contracts.relay then .error (.reverted (.noContract target))
    else
      match RelayCall.decode data with
      | .ok call => reverting (executeRelay contracts state call)
      -- Everything that is no relay call, a malformed one too, counts as a call of the owner.
      | .error _ =>
        if sender ≠ contracts.custody then .error (.reverted .notOwner)
        else executeOwned state selector arguments

/-- Executes calldata. A nested call is shorter than the calldata that holds it. -/
def execute (contracts : Contracts) (state : State) (sender target : Address) (data : Bytes) :
    Except Halt State :=
  executeWithin contracts (data.length + 1) state sender target data

end GaslessRelay.Chain
