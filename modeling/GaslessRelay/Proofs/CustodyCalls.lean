import GaslessRelay.Proofs.NestedCalls
import GaslessRelay.Proofs.SettledTransactions

/-!
Calls that clients make through the custody account. The chain reads from the calldata of a proposal
the calls that were packed into it, and executes them in order as the custody account. What a client
learns is how that execution ended (`Custody.settles_executeCall`, `Custody.settles_executeBatch`).
-/

namespace GaslessRelay

open Bytes (StandsAt)
open Outcome

namespace Custody

theorem length_proposeCalldata (target : Address) (data : Bytes) (mode : BatchMode) :
    (proposeCalldata target data mode).length = 132 + data.length + Abi.padding data.length := by
  simp [proposeCalldata, Abi.length_encodeCall, Abi.encode, Abi.encodeParts, Abi.assemble,
    Abi.heads, Abi.tails, AbiValue.ofNat, AbiValue.isDynamic, Abi.encodeValue,
    Abi.length_lengthAndBytes]
  omega

end Custody

namespace Batch

theorem encode_blob (blob : Bytes) :
    Abi.encode [.bytes blob] = Abi.numberWord 32 ++ Abi.lengthAndBytes blob := by
  simp [Abi.encode, Abi.encodeParts, Abi.assemble, Abi.heads, Abi.tails, Abi.headLength,
    AbiValue.isDynamic, Abi.encodeValue]

theorem length_multiSendCalldata (blob : Bytes) :
    (multiSendCalldata blob).length = 68 + blob.length + Abi.padding blob.length := by
  rw [multiSendCalldata, Abi.length_encodeCall, encode_blob, List.length_append,
    Abi.length_numberWord, Abi.length_lengthAndBytes]
  omega

end Batch

namespace Custody

/-- The calldata with which an account has the helper make several calls. -/
def batchCalldata (custody : Custody) (operations : List BatchOperation) : Bytes :=
  proposeCalldata custody.multiSend (Batch.multiSendCalldata (operations.flatMap Batch.encodeOne))
    .delegated

/-- The calldata of a batch is not too long for the lengths and offsets in it. -/
def Fits (custody : Custody) (operations : List BatchOperation) : Prop :=
  (custody.batchCalldata operations).length < Text.wordLimit

variable {custody : Custody} {operations : List BatchOperation}

theorem Fits.blob (fits : custody.Fits operations) :
    (operations.flatMap Batch.encodeOne).length + 200 < Text.wordLimit := by
  unfold Fits batchCalldata at fits
  rw [length_proposeCalldata, Batch.length_multiSendCalldata] at fits
  omega

theorem Fits.payload (fits : custody.Fits operations) :
    ∀ operation ∈ operations, operation.payload.length + 200 < Text.wordLimit := by
  intro operation member
  have inBlob := Batch.payload_le_length_flatMap operation member
  have blob := fits.blob
  omega

/-- A call of the batch fits on its own. -/
theorem Fits.single (fits : custody.Fits operations) :
    ∀ operation ∈ operations,
      (proposeCalldata operation.target operation.payload .direct).length < Text.wordLimit := by
  intro operation member
  have payload := fits.payload operation member
  have padded : Abi.padding operation.payload.length ≤ 31 := by
    unfold Abi.padding
    omega
  rw [length_proposeCalldata]
  omega

end Custody

namespace Chain

variable {contracts : Contracts} {state : State} {target : Address} {data : Bytes}
  {mode : BatchMode}

def proposalArguments (target : Address) (data : Bytes) (mode : BatchMode) : List AbiValue :=
  [.address target, .bytes data, .ofNat mode.byte.toNat]

theorem length_proposalArguments_lt
    (small : (Custody.proposeCalldata target data mode).length < Text.wordLimit) :
    (Abi.encode (proposalArguments target data mode)).length < Text.wordLimit := by
  rw [Custody.proposeCalldata, Abi.length_encodeCall] at small
  exact Nat.lt_of_le_of_lt (Nat.le_add_left _ _) small

theorem decode_proposalArguments
    (small : (Abi.encode (proposalArguments target data mode)).length < Text.wordLimit) :
    Abi.decode [.address, .bytes, .uint 8] (Abi.encode (proposalArguments target data mode))
      = .ok (proposalArguments target data mode) := by
  have valid : ∀ type ∈ [.address, .bytes, .uint 8], AbiType.Valid type := by
    simp [AbiType.Valid]
  have inByte : (AbiValue.ofNat mode.byte.toNat).HasType (.uint 8) := by
    cases mode <;> simp [AbiValue.ofNat, AbiValue.HasType, BatchMode.byte]
  exact Abi.decode_encode_of_valid valid (.cons trivial (.cons trivial (.cons inByte .nil))) small

theorem proposedCalls_direct
    (small : (Abi.encode (proposalArguments target data .direct)).length < Text.wordLimit) :
    proposedCalls contracts (Abi.encode (proposalArguments target data .direct))
      = .ok [⟨.direct, target, data⟩] := by
  unfold proposedCalls
  rw [decode_proposalArguments small]
  rfl

theorem proposedCalls_batch {operations : List BatchOperation} (some : operations ≠ [])
    (small : (Abi.encode (proposalArguments contracts.multiSend
      (Batch.multiSendCalldata (operations.flatMap Batch.encodeOne)) .delegated)).length
        < Text.wordLimit)
    (fits : ∀ operation ∈ operations, operation.payload.length < Text.wordLimit)
    (blobFits : (operations.flatMap Batch.encodeOne).length + 200 < Text.wordLimit) :
    proposedCalls contracts (Abi.encode (proposalArguments contracts.multiSend
      (Batch.multiSendCalldata (operations.flatMap Batch.encodeOne)) .delegated))
        = .ok operations := by
  have unpacked := Batch.decode_encode some fun operation member =>
    Batch.inField_of_word (fits operation member)
  have called := splitSelector_encodeCall Batch.multiSendSignature
    [.bytes (operations.flatMap Batch.encodeOne)]
  unfold proposedCalls
  rw [decode_proposalArguments small]
  generalize operations.flatMap Batch.encodeOne = blob at unpacked called blobFits ⊢
  have blobSmall : (Abi.encode [.bytes blob]).length < Text.wordLimit := by
    rw [Batch.encode_blob, List.length_append, Abi.length_numberWord, Abi.length_lengthAndBytes]
    unfold Abi.padding
    omega
  have read : Abi.decode [.bytes] (Abi.encode [.bytes blob]) = .ok [.bytes blob] :=
    Abi.decode_encode_of_valid (by simp [AbiType.Valid]) (.cons trivial .nil) blobSmall
  have delegated : ¬(BitVec.ofNat 256 BatchMode.delegated.byte.toNat).toNat
      = BatchMode.direct.byte.toNat := by decide
  simp only [decoded, proposalArguments, AbiValue.ofNat, Except.mapError, ok_bind,
    if_neg delegated, ne_eq, not_true, if_false, Batch.multiSendCalldata, called, read, unpacked]

/-- The custody account executes the calls of a proposal in order, whoever proposes them. -/
theorem execute_proposal {calls : List BatchOperation} {arguments : List AbiValue}
    (held : proposedCalls contracts (Abi.encode arguments) = .ok calls) (sender : Address) :
    execute contracts state sender contracts.custody
        (Abi.encodeCall Custody.proposeSignature arguments)
      = executeBatch contracts (execute contracts) state calls := by
  rw [execute_eq, splitSelector_encodeCall, reverting_ok, ok_bind]
  dsimp only
  rw [if_pos ⟨rfl, rfl⟩, executeProposal, held, reverting_ok, ok_bind]

theorem executeBatch_cons (nested : Nested) (state : State) (call : BatchOperation)
    (rest : List BatchOperation) :
    executeBatch contracts nested state (call :: rest)
      = (nested state contracts.custody call.target call.payload >>= fun next =>
          executeBatch contracts nested next rest) :=
  List.foldlM_cons ..

theorem executeBatch_singleton (nested : Nested) (state : State) (call : BatchOperation) :
    executeBatch contracts nested state [call]
      = nested state contracts.custody call.target call.payload := by
  rw [executeBatch_cons]
  cases nested state contracts.custody call.target call.payload <;> rfl

theorem execute_proposeCalldata
    (small : (Custody.proposeCalldata target data .direct).length < Text.wordLimit)
    (sender : Address) :
    execute contracts state sender contracts.custody (Custody.proposeCalldata target data .direct)
      = execute contracts state contracts.custody target data := by
  rw [Custody.proposeCalldata, ← proposalArguments,
    execute_proposal (proposedCalls_direct (length_proposalArguments_lt small)),
    executeBatch_singleton]

theorem execute_batchCalldata {custody : Custody} (helper : custody.multiSend = contracts.multiSend)
    {operations : List BatchOperation} (some : operations ≠ []) (fits : custody.Fits operations)
    (sender : Address) :
    execute contracts state sender contracts.custody (custody.batchCalldata operations)
      = executeBatch contracts (execute contracts) state operations := by
  have blob := fits.blob
  have payload := fits.payload
  unfold Custody.Fits Custody.batchCalldata at fits
  rw [helper] at fits
  unfold Custody.batchCalldata
  rw [helper, Custody.proposeCalldata, ← proposalArguments]
  refine execute_proposal
    (proposedCalls_batch some (length_proposalArguments_lt fits) ?_ blob) sender
  intro operation member
  have short := payload operation member
  omega

/-- The records after one more transaction, some blocks later. -/
structure Records.Follow (records : Records) (state : State) (confirmations : UInt64) : Prop where
  sent : records.transactions = state.transactions + 1
  near : records.block.toNat ≤ state.block.toNat + max 1 confirmations.toNat

/-- The program sends one transaction that ends with an outcome, and tells the outcome: a receipt,
or the failure that the reason of the revert stands for. If the transaction crashes the chain, it
never tells anything. -/
inductive Settles (contracts : Contracts) (confirmations : UInt64) (program : ClientM Receipt)
    (state : State) : Except Halt State → Prop where
  | succeeded {after : State} {receipt : Receipt} {records : Records}
      (ends : program.Yields (ledger contracts) state (.ok receipt) (after.withRecords records))
      (success : receipt.success = true) (follow : records.Follow state confirmations) :
      Settles contracts confirmations program state (.ok after)
  | failed {revert : Revert} {records : Records}
      (ends : program.Yields (ledger contracts) state (.error (.ofRevert revert.reason))
        (state.withRecords records))
      (follow : records.Follow state confirmations) :
      Settles contracts confirmations program state (.error (.reverted revert))
  | crashed {records : Records}
      (stalls : program.Stalls (ledger contracts) state (state.poison.withRecords records)) :
      Settles contracts confirmations program state (.error .crashed)

theorem settles_propose {custody : Custody} {outcome : Except Halt State}
    (room : state.HasRoom custody.confirmations)
    (executed : execute contracts state relayerAccount custody.address
      (Custody.proposeCalldata target data mode) = outcome) :
    Settles contracts custody.confirmations (custody.propose target data mode) state outcome := by
  by_cases crashed : outcome = .error .crashed
  · rw [crashed] at executed ⊢
    exact .crashed (Custody.stalls_propose room.unlocked executed)
  obtain ⟨height, near, ends⟩ :=
    @Custody.yields_propose contracts state custody target data mode
      (fun same => crashed (executed.symm.trans same)) room
  have follow : Records.Follow { recordsAfter contracts state custody.address
      (Custody.proposeCalldata target data mode) with block := height } state
      custody.confirmations := ⟨rfl, near⟩
  unfold clientReceipt storedReceipt settled effect at ends
  rw [executed] at ends
  rcases outcome with (revert | _) | after
  · exact .failed ends follow
  · exact absurd rfl crashed
  · exact .succeeded ends rfl follow

theorem Settles.bump {confirmations : UInt64} {program : ClientM Receipt} {counter : Counter}
    {outcome : Except Halt State} (settles : Settles contracts confirmations program state outcome) :
    Settles contracts confirmations (ClientM.bump counter >>= fun _ => program) state outcome := by
  cases settles with
  | succeeded ends success follow =>
    exact .succeeded (ClientM.yields_bump_bind ends) success follow
  | failed ends follow => exact .failed (ClientM.yields_bump_bind ends) follow
  | crashed stalls => exact .crashed (ClientM.stalls_bump_bind stalls)

end Chain

namespace Custody

open Chain

variable {contracts : Contracts} {state : State} {custody : Custody}

theorem settles_executeCall (own : custody.address = contracts.custody)
    (room : state.HasRoom custody.confirmations) {target : Address} {data : Bytes}
    (small : (proposeCalldata target data .direct).length < Text.wordLimit) :
    Settles contracts custody.confirmations (custody.executeCall target data) state
      (execute contracts state contracts.custody target data) := by
  refine (settles_propose room ?_).bump
  rw [own, execute_proposeCalldata small]

theorem settles_executeBatch (own : custody.address = contracts.custody)
    (helper : custody.multiSend = contracts.multiSend) (room : state.HasRoom custody.confirmations)
    {operations : List BatchOperation} (some : operations ≠ []) (fits : custody.Fits operations) :
    Settles contracts custody.confirmations (custody.executeBatch operations) state
      (Chain.executeBatch contracts (execute contracts) state operations) := by
  have proposed := @settles_propose contracts state custody.multiSend
    (Batch.multiSendCalldata (operations.flatMap Batch.encodeOne)) .delegated custody _ room rfl
  rw [own, ← batchCalldata, execute_batchCalldata helper some fits] at proposed
  unfold executeBatch ClientM.decoded
  rw [Batch.encode_eq_ok some]
  exact proposed.bump

end Custody

end GaslessRelay
