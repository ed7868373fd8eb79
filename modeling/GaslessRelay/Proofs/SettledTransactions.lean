import GaslessRelay.Client.Relay
import GaslessRelay.Proofs.ChainRecords
import GaslessRelay.Proofs.ConfirmationWait
import GaslessRelay.Proofs.LedgerRuns
import GaslessRelay.Proofs.RelayTransactions

/-!
What a client sees of its transactions on a chain that nobody else uses. A wait ends as long as the
chain has room for the blocks, and the reason of a failure, which the chain does not store, is that
with which the execution stopped. Main statement: `Settlement.yields_submitAndConfirm`.
-/

namespace GaslessRelay

namespace Chain

def viewSignatures : List String :=
  [Account.getNonceSignature, Custody.getOwnersSignature, Custody.getThresholdSignature]

def sentSignatures : List String :=
  [executeSingleSignature, executeThresholdSignature, Custody.proposeSignature]

theorem sentSelectors_ne :
    ∀ signature ∈ sentSignatures, ∀ view ∈ viewSignatures,
      Abi.functionSelector signature ≠ Abi.functionSelector view := by
  decide +kernel

/-- No view answers calldata that clients send. -/
def Unviewed (data : Bytes) : Prop :=
  ∀ contracts state target, view? contracts state target data = none

theorem unviewed_encodeCall {signature : String} (sent : signature ∈ sentSignatures)
    (arguments : List AbiValue) : Unviewed (Abi.encodeCall signature arguments) := by
  intro contracts state target
  have different := sentSelectors_ne signature sent
  have notNonce := different Account.getNonceSignature (by simp [viewSignatures])
  have notOwners := different Custody.getOwnersSignature (by simp [viewSignatures])
  have notThreshold := different Custody.getThresholdSignature (by simp [viewSignatures])
  unfold view?
  rw [splitSelector_encodeCall]
  simp [Except.toOption, notNonce, notOwners, notThreshold]

theorem call_eq_error {contracts : Contracts} {state : State} {target : Address} {data : Bytes}
    {revert : Revert} (unviewed : Unviewed data)
    (reverted : execute contracts state relayerAccount target data = .error (.reverted revert)) :
    call contracts state target data = (some (.error (.ofRevert revert.reason)), state) := by
  unfold call
  rw [unviewed, reverted]

/-- The chain answers, and its block numbers do not run out while a transaction of the next block
becomes deep enough. -/
structure State.HasRoom (state : State) (confirmations : UInt64) : Prop where
  unlocked : state.poisoned = false
  blocks : 1 < confirmations → state.block.toNat + confirmations.toNat < UInt64.size

/-- What a client learns about a transaction: its receipt with the reason of a failure. -/
def clientReceipt (contracts : Contracts) (state : State) (target : Address) (data : Bytes) :
    Receipt :=
  { storedReceipt contracts state target data with
    revertReason :=
      match execute contracts state relayerAccount target data with
      | .error (.reverted revert) => some revert.reason
      | .ok _ | .error .crashed => none }

/-- The chain after a transaction, at some height. -/
def settled (contracts : Contracts) (state : State) (target : Address) (data : Bytes)
    (height : UInt64) : State :=
  (effect contracts state target data).withRecords
    { recordsAfter contracts state target data with block := height }

theorem poisoned_settled (contracts : Contracts) (state : State) (target : Address) (data : Bytes)
    (height : UInt64) :
    (settled contracts state target data height).poisoned = state.poisoned :=
  poisoned_effect state target data

end Chain

namespace Settlement

open Chain

variable {contracts : Contracts} {state : State}

theorem next_depth {block confirmations : UInt64} (above : block.toNat ≤ state.block.toNat)
    (shallow : state.block.toNat + 1 < block.toNat + confirmations.toNat)
    (room : block.toNat + confirmations.toNat ≤ UInt64.size) :
    (state.block + 1).toNat = state.block.toNat + 1 ∧
      (depth (state.block + 1) block).toNat = state.block.toNat + 2 - block.toNat := by
  have next : (state.block + 1).toNat = state.block.toNat + 1 := by
    rw [UInt64.toNat_add]
    exact Nat.mod_eq_of_lt (Nat.lt_of_lt_of_le shallow room)
  have bound := confirmations.toNat_lt_size
  have fits : ¬Overflows (state.block + 1) block := by
    rw [overflows_iff, next]
    omega
  refine ⟨next, ?_⟩
  rw [toNat_depth_of_fits fits, next]
  omega

theorem yields_depth (unlocked : state.poisoned = false) {block confirmations : UInt64}
    (missing : Nat)
    (distance : block.toNat + confirmations.toNat = state.block.toNat + 2 + missing)
    (above : block.toNat ≤ state.block.toNat)
    (room : block.toNat + confirmations.toNat ≤ UInt64.size) :
    ∃ head height, height.toNat + 1 = block.toNat + confirmations.toNat ∧
      (ClientM.poll .blockNumber fun head =>
        decide (confirmations ≤ depth head block)).Yields (ledger contracts) state (.ok head)
      { state with block := height } := by
  -- The next head is one block nearer, and its number does not wrap before it is deep enough.
  induction missing generalizing state with
  | zero =>
    obtain ⟨next, measured⟩ := @next_depth state block confirmations above (by omega) room
    have enough : confirmations ≤ depth (state.block + 1) block := by
      rw [UInt64.le_iff_toNat_le, measured]
      omega
    have answered := @answer_blockNumber contracts state unlocked
    exact ⟨_, state.block + 1, by omega, ClientM.yields_poll answered (by simpa using enough)⟩
  | succ missing ih =>
    obtain ⟨next, measured⟩ := @next_depth state block confirmations above (by omega) room
    have shallow : ¬confirmations ≤ depth (state.block + 1) block := by
      rw [UInt64.le_iff_toNat_le, measured]
      omega
    obtain ⟨head, height, reached, continued⟩ := @ih { state with block := state.block + 1 }
      unlocked (by rw [next, distance]; omega) (by rw [next]; omega)
    have answered := @answer_blockNumber contracts state unlocked
    exact ⟨head, height, reached,
      ClientM.yields_poll_again answered (by simpa using shallow) continued⟩

theorem yields_waitForReceipt (unlocked : state.poisoned = false) {receipt : Receipt}
    {confirmations : UInt64} {transaction : Hash}
    (stored : state.receipts.get? transaction = some receipt)
    (latest : receipt.block = state.block)
    (room : 1 < confirmations → receipt.block.toNat + confirmations.toNat ≤ UInt64.size) :
    ∃ height, height.toNat ≤ state.block.toNat + (confirmations.toNat - 1) ∧
      (waitForReceipt transaction confirmations).Yields (ledger contracts) state
        (.ok receipt) { state with block := height } := by
  have answered := @answer_receipt contracts state unlocked transaction
  rw [stored] at answered
  have included : (ClientM.poll (.receipt transaction) Option.isSome).Yields (ledger contracts)
      state (.ok (some receipt)) state :=
    ClientM.yields_poll answered rfl
  unfold waitForReceipt
  by_cases deep : 1 < confirmations
  · have several : 2 ≤ confirmations.toNat := UInt64.lt_iff_toNat_lt.1 deep
    obtain ⟨head, height, reached, waited⟩ := @yields_depth contracts state unlocked receipt.block
      confirmations (confirmations.toNat - 2) (by rw [latest]; omega)
      (Nat.le_of_eq (by rw [latest])) (room deep)
    rw [latest] at reached
    refine ⟨height, by omega, included.bind ?_⟩
    dsimp only
    rw [if_pos deep]
    exact waited.bind (ClientM.yields_pure receipt)
  · refine ⟨state.block, Nat.le_add_right _ _, included.bind ?_⟩
    dsimp only
    rw [if_neg deep]
    exact ClientM.yields_pure receipt

/-- A replay that reverts gives the reason of the revert. -/
theorem yields_replayReason_of_revert {σ : Type} {served : Ledger σ} {before after : σ}
    {target : Address} {data : Bytes} {reason : String}
    (answered : served.answer before (.call target data)
      = (some (.error (.ofRevert reason)), after)) :
    (replayReason target data).Yields served before (.ok reason) after := by
  unfold replayReason
  refine (ClientM.yields_query answered).attempt.bind ?_
  dsimp only
  rw [RelayError.revertReason?_ofRevert]
  exact ClientM.yields_pure reason

theorem yields_replayReason {target : Address} {data : Bytes} {revert : Revert}
    (unlocked : state.poisoned = false) (unviewed : Unviewed data)
    (reverted : execute contracts state relayerAccount target data = .error (.reverted revert)) :
    (replayReason target data).Yields (ledger contracts) state (.ok revert.reason) state :=
  yields_replayReason_of_revert ((answer_call unlocked _ _).trans (call_eq_error unviewed reverted))

theorem yields_send {target : Address} {data : Bytes} (unlocked : state.poisoned = false)
    (finishes : Finishes contracts state target data) :
    (ClientM.query (.send target data)).Yields (ledger contracts) state
      (.ok (transactionHash state.mined.block data))
      (settled contracts state target data state.mined.block) := by
  refine ClientM.yields_query ((answer_send unlocked _ _).trans ?_)
  rw [send_eq_effect finishes]
  rfl

theorem stalls_send {target : Address} {data : Bytes} (unlocked : state.poisoned = false)
    (crashed : execute contracts state relayerAccount target data = .error .crashed) :
    (ClientM.query (.send target data)).Stalls (ledger contracts) state
      (state.poison.withRecords (minedRecords state)) := by
  refine ClientM.stalls_query ((answer_send unlocked _ _).trans ?_)
  rw [send_eq_poison crashed]
  rfl

theorem room_mined {confirmations : UInt64} (room : state.HasRoom confirmations)
    (deep : 1 < confirmations) :
    state.mined.block.toNat + confirmations.toNat ≤ UInt64.size := by
  have several : 1 < confirmations.toNat := UInt64.lt_iff_toNat_lt.1 deep
  have roomy := room.blocks deep
  have small : state.block.toNat + 1 < UInt64.size := by omega
  have next : state.mined.block.toNat = state.block.toNat + 1 := by
    show (state.block + 1).toNat = _
    rw [UInt64.toNat_add]
    exact Nat.mod_eq_of_lt small
  omega

theorem toNat_mined_le (state : State) : state.mined.block.toNat ≤ state.block.toNat + 1 := by
  show (state.block + 1).toNat ≤ _
  rw [UInt64.toNat_add]
  exact Nat.mod_le _ _

/-- A transaction is sent once, has its effect, and its receipt comes back with the reason of a
failure. -/
theorem yields_submitAndConfirm {target : Address} {data : Bytes} {confirmations : UInt64}
    (unviewed : Unviewed data) (finishes : Finishes contracts state target data)
    (room : state.HasRoom confirmations) :
    ∃ height, height.toNat ≤ state.block.toNat + max 1 confirmations.toNat ∧
      (submitAndConfirm target data confirmations).Yields (ledger contracts) state
        (.ok (clientReceipt contracts state target data))
        (settled contracts state target data height) := by
  have stored : (settled contracts state target data state.mined.block).receipts.get?
      (transactionHash state.mined.block data) = some (storedReceipt contracts state target data) :=
    (Table.get?_insert _ _ _ _).trans (if_pos rfl)
  obtain ⟨height, reached, waited⟩ :=
    @yields_waitForReceipt contracts _ ((poisoned_settled _ _ _ _ _).trans room.unlocked) _
      confirmations _ stored rfl (room_mined room)
  have mined : (settled contracts state target data state.mined.block).block.toNat
    ≤ state.block.toNat + 1 := toNat_mined_le state
  refine ⟨height, by omega, (yields_send room.unlocked finishes).bind (waited.bind ?_)⟩
  rcases outcome : execute contracts state relayerAccount target data with (revert | _) | after
  rotate_right
  · have success : (storedReceipt contracts state target data).success = true := by
      unfold storedReceipt
      rw [outcome]
      rfl
    have same : clientReceipt contracts state target data
        = storedReceipt contracts state target data := by
      unfold clientReceipt
      rw [outcome]
      rfl
    rw [if_pos success, same]
    exact ClientM.yields_pure _
  · have failure : ¬(storedReceipt contracts state target data).success = true := by
      unfold storedReceipt
      rw [outcome]
      exact Bool.false_ne_true
    have failedAgain : execute contracts (settled contracts state target data height)
        relayerAccount target data = .error (.reverted revert) := by
      unfold settled effect
      rw [outcome, execute_withRecords, outcome]
      rfl
    have same : clientReceipt contracts state target data
        = { storedReceipt contracts state target data with
            revertReason := some revert.reason } := by
      unfold clientReceipt
      rw [outcome]
    rw [if_neg failure, same]
    exact (yields_replayReason ((poisoned_settled _ _ _ _ _).trans room.unlocked) unviewed
      failedAgain).bind (ClientM.yields_pure _)
  · exact absurd outcome finishes

/-- A transaction that crashes the chain is never heard of again. -/
theorem stalls_submitAndConfirm {target : Address} {data : Bytes} {confirmations : UInt64}
    (unlocked : state.poisoned = false)
    (crashed : execute contracts state relayerAccount target data = .error .crashed) :
    (submitAndConfirm target data confirmations).Stalls (ledger contracts) state
      (state.poison.withRecords (minedRecords state)) :=
  (stalls_send unlocked crashed).bind _

end Settlement

open Chain

theorem EncodedRequest.unviewed_relayCalldata {encoded : EncodedRequest} {policy : AccountPolicy}
    {set : SignatureSet} {data : Bytes} (spelled : encoded.relayCalldata policy set = .ok data) :
    Unviewed data := by
  obtain ⟨signature, signatures, relayFunction, -, rfl⟩ :=
    EncodedRequest.relayCalldata_eq_ok spelled
  apply unviewed_encodeCall
  simp only [sentSignatures, List.mem_cons, List.not_mem_nil, or_false] at relayFunction ⊢
  exact relayFunction.imp_right .inl

variable {contracts : Contracts} {state : State}

def RelayOutcome.ofReceipt (receipt : Receipt) : RelayOutcome :=
  ⟨if receipt.success then .confirmed else .reverted, receipt⟩

theorem RelayContext.yields_dispatch {context : RelayContext} {request : Request}
    {policy : AccountPolicy} {set : SignatureSet} {encoded : EncodedRequest} {data : Bytes}
    (accepted : context.encode request = .ok encoded)
    (spelled : encoded.relayCalldata policy set = .ok data)
    (room : state.HasRoom context.config.effectiveConfirmations) :
    ∃ height, (context.dispatch request policy set).Yields (ledger contracts) state
      (.ok (.ofReceipt (clientReceipt contracts state context.config.relayAddress data)))
      (settled contracts state context.config.relayAddress data height) := by
  obtain ⟨height, -, submitted⟩ := Settlement.yields_submitAndConfirm
    (EncodedRequest.unviewed_relayCalldata spelled) (finishes_relayCalldata spelled) room
  refine ⟨height, ?_⟩
  unfold dispatch
  rw [accepted]
  refine (ClientM.yields_known _).bind ?_
  rw [spelled]
  refine (ClientM.yields_known _).bind (ClientM.yields_bump_bind (submitted.bind ?_))
  unfold RelayOutcome.ofReceipt
  split
  · exact ClientM.yields_bump_bind (ClientM.yields_pure _)
  · exact ClientM.yields_bump_bind (ClientM.yields_pure _)

namespace Custody

variable {custody : Custody}

theorem unviewed_proposeCalldata (target : Address) (data : Bytes) (mode : BatchMode) :
    Unviewed (proposeCalldata target data mode) :=
  unviewed_encodeCall (by simp [sentSignatures]) _

theorem yields_propose {target : Address} {data : Bytes} {mode : BatchMode}
    (finishes : Finishes contracts state custody.address (proposeCalldata target data mode))
    (room : state.HasRoom custody.confirmations) :
    ∃ height, height.toNat ≤ state.block.toNat + max 1 custody.confirmations.toNat ∧
      (custody.propose target data mode).Yields (ledger contracts) state
        (clientReceipt contracts state custody.address (proposeCalldata target data mode)).result
        (settled contracts state custody.address (proposeCalldata target data mode) height) := by
  obtain ⟨height, reached, submitted⟩ := @Settlement.yields_submitAndConfirm contracts state
    custody.address _ custody.confirmations (unviewed_proposeCalldata target data mode) finishes
    room
  exact ⟨height, reached, submitted.bind (ClientM.yields_known _)⟩

theorem stalls_propose {target : Address} {data : Bytes} {mode : BatchMode}
    (unlocked : state.poisoned = false)
    (crashed : execute contracts state relayerAccount custody.address
      (proposeCalldata target data mode) = .error .crashed) :
    (custody.propose target data mode).Stalls (ledger contracts) state
      (state.poison.withRecords (minedRecords state)) :=
  (Settlement.stalls_submitAndConfirm unlocked crashed).bind _

theorem executeBatch_eq {operations : List BatchOperation} {blob : Bytes}
    (packed : Batch.encode operations = .ok blob) :
    custody.executeBatch operations = (ClientM.bump .custodyBatches >>= fun _ =>
      custody.propose custody.multiSend (Batch.multiSendCalldata blob) .delegated) := by
  unfold executeBatch
  rw [packed]
  rfl

end Custody

end GaslessRelay
