import GaslessRelay.Client.Ledger

/-!
Transactions from submission to their settled receipt: inclusion, depth, and the reason of a revert.
-/

namespace GaslessRelay.Settlement

/-- How deep a block is below the head; the block itself counts as one. -/
def depth (head block : UInt64) : UInt64 := (if head < block then 0 else head - block) + 1

/-- Waits until a transaction is included and deep enough. Up to one confirmation is inclusion. -/
def waitForReceipt (transaction : Hash) (confirmations : UInt64) : ClientM Receipt := do
  match ← ClientM.poll (.receipt transaction) Option.isSome with
  | some receipt =>
    if 1 < confirmations then
      let _ ← ClientM.poll .blockNumber fun head => confirmations ≤ depth head receipt.block
    return receipt
  | none => ClientM.known (.error (.rpc "no receipt"))

def replayReason (target : Address) (data : Bytes) : ClientM String := do
  match ← ClientM.attempt (ClientM.query (.call target data)) with
  | .error error =>
    match error.revertReason? with
    | some reason => return reason
    | none => return "reverted; replay failed: " ++ error.message
  | .ok _ => return "reverted without reason"

/-- Sends a transaction and waits for it. A revert without a reason gets that of a replay. -/
def submitAndConfirm (target : Address) (data : Bytes) (confirmations : UInt64) :
    ClientM Receipt := do
  let transaction ← ClientM.query (.send target data)
  let receipt ← waitForReceipt transaction confirmations
  if receipt.success then return receipt
  match receipt.revertReason with
  | some _ => return receipt
  | none => return { receipt with revertReason := some (← replayReason target data) }

end GaslessRelay.Settlement
