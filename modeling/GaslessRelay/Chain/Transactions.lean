import GaslessRelay.Chain.Execution

/-!
The chain as a ledger: transactions take effect as a whole or not at all, calls take none, and
reads of counters may lag behind. An execution that crashes leaves the chain locked for good.
-/

namespace GaslessRelay.Chain

def relayerAccount : Address := 0

def view? (contracts : Contracts) (state : State) (target : Address) (data : Bytes) :
    Option (Bytes × State) := do
  let (selector, arguments) ← (splitSelector data).toOption
  if target = contracts.relay ∧ selector = Abi.functionSelector Account.getNonceSignature then
    let sender ← (Abi.addressAt arguments 0).toOption
    let live := state.nonce sender
    if state.staleReads = 0 then return (Abi.encode [.ofNat live.toNat], state)
    else
      let state := { state with staleReads := state.staleReads - 1 }
      return (Abi.encode [.ofNat (live.toNat - 1)], state)
  else
    let set := state.ownerSets.get? target
    if selector = Abi.functionSelector Custody.getOwnersSignature then
      return (match set with
        | some set => Abi.encode [.array (set.owners.map AbiValue.address)]
        | none => [], state)
    else if selector = Abi.functionSelector Custody.getThresholdSignature then
      return (match set with
        | some set => Abi.encode [.ofNat set.threshold.toNat]
        | none => [], state)
    else none

/-- A call: a view's answer, or nothing if the execution would succeed. -/
def call (contracts : Contracts) (state : State) (target : Address) (data : Bytes) :
    Option (Except RelayError Bytes) × State :=
  match view? contracts state target data with
  | some (answer, state) => (some (.ok answer), state)
  | none =>
    match execute contracts state relayerAccount target data with
    | .ok _ => (some (.ok []), state)
    | .error (.reverted revert) => (some (.error (.ofRevert revert.reason)), state)
    | .error .crashed => (none, state.poison)

def transactionHash (block : UInt64) (data : Bytes) : Hash :=
  Digest.keccak256 (Bytes.ofNat 8 block.toNat ++ data)

def send (contracts : Contracts) (state : State) (target : Address) (data : Bytes) :
    Option Hash × State :=
  let mined := state.mined
  let hash := transactionHash mined.block data
  match execute contracts mined relayerAccount target data with
  | .ok after => (some hash, after.withReceipt hash mined.block true)
  | .error (.reverted _) => (some hash, mined.withReceipt hash mined.block false)
  | .error .crashed => (none, mined.poison)

/-- The answer of the chain to a question; asking for the head makes a block. Only the number of the
chain can be told without its lock. -/
def answer (contracts : Contracts) (state : State) :
    (request : LedgerRequest) → Option request.Reply × State
  | .call target data => state.locked fun state => call contracts state target data
  | .send target data =>
    state.locked fun state =>
      let (hash?, state) := send contracts state target data
      (hash?.map .ok, state)
  | .receipt transaction =>
    state.locked fun state => (some (.ok (state.receipts.get? transaction)), state)
  | .blockNumber =>
    state.locked fun state =>
      (some (.ok (state.block + 1)), { state with block := state.block + 1 })
  | .chainId => (some (.ok contracts.chainId), state)

def ledger (contracts : Contracts) : Ledger State := ⟨answer contracts⟩

end GaslessRelay.Chain
