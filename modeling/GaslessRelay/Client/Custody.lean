import GaslessRelay.Account.Policy
import GaslessRelay.Batch
import GaslessRelay.Client.Context
import GaslessRelay.Client.Settlement

/-!
The custody account with several owners: single calls, batches of calls, and the policies of
accounts.
-/

namespace GaslessRelay

namespace Custody

def proposeSignature : String := "proposeAndExecute(address,bytes,uint8)"

def getOwnersSignature : String := "getOwners()"

def getThresholdSignature : String := "getThreshold()"

def proposeCalldata (target : Address) (data : Bytes) (mode : BatchMode) : Bytes :=
  Abi.encodeCall proposeSignature [.address target, .bytes data, .ofNat mode.byte.toNat]

/-- The policy of an account. One without owners to tell answers nothing and has a single key. -/
def fetchPolicy (account : Address) : ClientM AccountPolicy := do
  let ownersAnswer ← ClientM.query
    (.call account (selectorBytes (Abi.functionSelector getOwnersSignature)))
  if ownersAnswer.isEmpty then return .singleKey
  let owners ← ClientM.decoded (Abi.decodeAddresses ownersAnswer)
  let thresholdAnswer ← ClientM.query
    (.call account (selectorBytes (Abi.functionSelector getThresholdSignature)))
  let threshold ← ClientM.decoded (Abi.decodeUint thresholdAnswer)
  if threshold.toNat < UInt64.size then return .threshold owners (UInt64.ofNat threshold.toNat)
  else ClientM.known (.error (.codec (.invalidAbi (.thresholdRange threshold.toNat))))

end Custody

structure Custody where
  address : Address
  confirmations : UInt64
  multiSend : Address
deriving DecidableEq

namespace Custody

def atAddress (context : RelayContext) (address : Address) : Custody where
  address
  confirmations := context.config.effectiveConfirmations
  multiSend := context.config.multiSendAddress

def ofContext (context : RelayContext) : Custody := atAddress context context.config.custodyAddress

def propose (custody : Custody) (target : Address) (data : Bytes) (mode : BatchMode) :
    ClientM Receipt := do
  let receipt ← Settlement.submitAndConfirm custody.address (proposeCalldata target data mode)
    custody.confirmations
  ClientM.known receipt.result

def executeCall (custody : Custody) (target : Address) (data : Bytes) : ClientM Receipt := do
  ClientM.bump .custodyCalls
  custody.propose target data .direct

/-- A batch of which either every call is made or none. -/
def executeBatch (custody : Custody) (operations : List BatchOperation) : ClientM Receipt := do
  let blob ← ClientM.decoded (Batch.encode operations)
  ClientM.bump .custodyBatches
  custody.propose custody.multiSend (Batch.multiSendCalldata blob) .delegated

def policy (custody : Custody) : ClientM AccountPolicy := fetchPolicy custody.address

end Custody

end GaslessRelay
