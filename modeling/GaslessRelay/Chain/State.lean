import GaslessRelay.Abi.MachineReader
import GaslessRelay.Client.Config
import GaslessRelay.Client.Context
import GaslessRelay.Client.Ledger
import GaslessRelay.Table

/-!
The chain in memory: what it remembers, its fixed contracts, and why an execution stops.
-/

namespace GaslessRelay.Chain

structure OwnerSet where
  owners : List Address
  threshold : UInt64
deriving DecidableEq

structure State where
  block : UInt64 := 0
  transactions : Nat := 0
  nonces : Table 160 UInt64 := {}
  registered : Table 256 String := {}
  dispatch : Table 32 Address := {}
  ownerSets : Table 160 OwnerSet := {}
  /-- The key and the sender of every executed request, oldest first. -/
  executed : List (String × Address) := []
  receipts : Table 256 Receipt := {}
  /-- The reason with which every module call fails. -/
  moduleRevert : Option String := none
  /-- How many reads of a counter will still lag behind by one. -/
  staleReads : Nat := 0
  /-- An execution crashed while it held the lock of the chain, which nobody gets any more. -/
  poisoned : Bool := false

instance : Inhabited State := ⟨{}⟩

structure Contracts where
  chainId : UInt64
  relay : Address
  custody : Address
  multiSend : Address
  catalog : Catalog
  domain : Domain

def Contracts.ofConfig (config : Config) (chainId : UInt64) : Except CodecError Contracts := do
  return {
    chainId
    relay := config.relayAddress
    custody := config.custodyAddress
    multiSend := config.multiSendAddress
    catalog := ← Catalog.builtin config.modules
    domain := config.domain chainId }

inductive Revert where
  | shortCalldata
  | noContract (address : Address)
  | notOwner
  | unknownFunction
  | malformed (error : CodecError)
  | malformedTypeString
  | malformedTypeHash
  | malformedProposal
  | malformedBlob
  | alreadyRegistered
  | notRegistered
  | selectorExists (selector : Selector)
  | selectorMissing (selector : Selector)
  | badAction (number : Nat)
  | delegateTarget
  | unknownBatchFunction
  | operationNotRegistered
  | wrongNonce
  | noOwnerSet
  | invalidSignature
  | unrecoverable (error : AuthError)
  | thresholdNotMet
  | module (reason : String)
  | nestedTooDeep
deriving DecidableEq

def Revert.reason : Revert → String
  | shortCalldata => "calldata shorter than a selector"
  | noContract address => "no contract at " ++ address.checksum
  | notOwner => "Relay: caller is not the owner"
  | unknownFunction => "Relay: unknown function"
  | malformed error => "malformed calldata: " ++ error.message
  | malformedTypeString => "Registry: malformed type string"
  | malformedTypeHash => "Registry: malformed type hash"
  | malformedProposal => "Custody: malformed proposal"
  | malformedBlob => "MultiSend: malformed blob"
  | alreadyRegistered => "Registry: type already registered"
  | notRegistered => "Registry: type not registered"
  | selectorExists selector => "Dispatch: " ++ selector.text ++ " exists"
  | selectorMissing selector => "Dispatch: " ++ selector.text ++ " missing"
  | badAction number => "Dispatch: bad action " ++ toString number
  | delegateTarget => "Custody: delegate target not allowed"
  | unknownBatchFunction => "MultiSend: unknown function"
  | operationNotRegistered => "Relay: operation type not registered"
  | wrongNonce => "Relay: invalid nonce"
  | noOwnerSet => "Relay: sender has no owner set"
  | invalidSignature => "Relay: invalid signature"
  | unrecoverable error => error.message
  | thresholdNotMet => "Relay: threshold not met"
  | module reason => reason
  | nestedTooDeep => "calls nested too deep"

/-- Why an execution ends without effect: it reverts, or the machine under the chain stops. -/
inductive Halt where
  | reverted (revert : Revert)
  | crashed
deriving DecidableEq

def Halt.ofStop : Machine.Stop → Halt
  | .refused error => reverted (.malformed error)
  | .overflow | .outOfBounds | .capacity => crashed

namespace State

def nonce (state : State) (sender : Address) : UInt64 := (state.nonces.get? sender).getD 0

def mined (state : State) : State :=
  { state with block := state.block + 1, transactions := state.transactions + 1 }

def withReceipt (state : State) (transaction : Hash) (block : UInt64) (success : Bool) : State :=
  { state with
    receipts := state.receipts.insert transaction ⟨transaction, block, success, none⟩ }

def poison (state : State) : State := { state with poisoned := true }

/-- What something gives that needs the lock of the chain: nothing if the lock is poisoned. -/
def locked {α : Type} (state : State) (run : State → Option α × State) : Option α × State :=
  if state.poisoned then (none, state) else run state

def update (state : State) (change : State → State) : State :=
  (state.locked fun state => (some (), change state)).2

def setOwnerSet (state : State) (account : Address) (owners : List Address) (threshold : UInt64) :
    State :=
  { state with ownerSets := state.ownerSets.insert account ⟨owners, threshold⟩ }

end State

end GaslessRelay.Chain
