import GaslessRelay.Proofs.SettledTransactions

/-!
Operations of the client whose transaction fails. Main statement: they change nothing but what the
chain records about its transactions, they tell the reason with which the execution stopped, and
repeated later they do what they would do had they never been tried
(`failed_transaction_changes_nothing`).
-/

namespace GaslessRelay

namespace Chain

variable {α β : Type} {contracts : Contracts} {state : State} {target : Address} {data : Bytes}
  {revert : Revert} {confirmations : UInt64}

/-- The program ends alike in two states of the chain and takes the same effect, or its transaction
crashes the chain in both. -/
inductive Alike (contracts : Contracts) (target : Address) (data : Bytes) (program : ClientM α)
    (seen : α → β) (state other : State) : Prop where
  | ended {result result' : Except RelayError α} {after : State} {records : Records}
      (first : program.Yields (ledger contracts) state result after)
      (second : program.Yields (ledger contracts) other result' (after.withRecords records))
      (same : result'.map seen = result.map seen)
  | crashed {after : State} {records : Records}
      (crashes : execute contracts state relayerAccount target data = .error .crashed)
      (first : program.Stalls (ledger contracts) state after)
      (second : program.Stalls (ledger contracts) other (after.withRecords records))

/-- The transaction of a program was taken back for a reason. The chain does not store the reason,
but the client and every replay tell it, and the chain keeps all but its records. Whatever happens
later, the program then ends as it would end had it never been tried. -/
structure TakenBack (contracts : Contracts) (target : Address) (data : Bytes)
    (confirmations : UInt64) (revert : Revert) (program : ClientM α) (seen : α → β) (state : State)
    (receipt : Receipt) (after : State) : Prop where
  told : receipt.revertReason = some revert.reason
  surfaced : receipt.result = .error (.ofRevert revert.reason)
  stored : after.receipts.get? receipt.transaction = some { receipt with revertReason := none }
  replayed : (call contracts after target data).1 = some (.error (.ofRevert revert.reason))
  kept : ∃ records, after = state.withRecords records
  repeatable : ∀ later : List Action,
    (runFrom contracts state later).HasRoom confirmations →
    (runFrom contracts after later).HasRoom confirmations →
    Alike contracts target data program seen (runFrom contracts state later)
      (runFrom contracts after later)

/-- The program sends one transaction, waits for it, and ends with an outcome of its receipt. It
stalls if the transaction crashes the chain. -/
structure Submits (program : ClientM α) (target : Address) (data : Bytes) (confirmations : UInt64)
    (outcome : Receipt → Except RelayError α) : Prop where
  yields : ∀ {contracts state}, State.HasRoom state confirmations →
    Finishes contracts state target data → ∃ height,
      program.Yields (ledger contracts) state (outcome (clientReceipt contracts state target data))
        (settled contracts state target data height)
  stalls : ∀ {contracts state}, state.poisoned = false →
    execute contracts state relayerAccount target data = .error .crashed →
    program.Stalls (ledger contracts) state (state.poison.withRecords (minedRecords state))

theorem execute_of_outcome {halt : Halt}
    (failed : Transaction.outcome contracts ⟨state, target, data⟩ = .error halt) :
    execute contracts state relayerAccount target data = .error halt := by
  have mined : Transaction.outcome contracts ⟨state, target, data⟩ = _ :=
    execute_mined state target data
  rw [mined] at failed
  exact Outcome.map_eq_error.1 failed

theorem settled_withRecords (records : Records) (height other : UInt64) :
    ∃ later, settled contracts (state.withRecords records) target data height
      = (settled contracts state target data other).withRecords later := by
  unfold settled
  rw [effect_withRecords]
  exact ⟨_, rfl⟩

theorem clientReceipt_withRecords (records : Records) :
    (clientReceipt contracts (state.withRecords records) target data).success
        = (clientReceipt contracts state target data).success ∧
      (clientReceipt contracts (state.withRecords records) target data).revertReason
        = (clientReceipt contracts state target data).revertReason := by
  unfold clientReceipt storedReceipt
  rw [execute_withRecords]
  rcases execute contracts state relayerAccount target data with (revert | _) | after <;>
    exact ⟨rfl, rfl⟩

theorem clientReceipt_failed
    (failed : execute contracts state relayerAccount target data = .error (.reverted revert)) :
    (clientReceipt contracts state target data).success = false ∧
      (clientReceipt contracts state target data).revertReason = some revert.reason := by
  unfold clientReceipt storedReceipt
  rw [failed]
  exact ⟨rfl, rfl⟩

namespace Submits

variable {program : ClientM α} {outcome : Receipt → Except RelayError α} {seen : α → β}

/-- Records that moved make no difference to the program. -/
theorem alike (submits : Submits program target data confirmations outcome)
    (same : ∀ first second : Receipt, first.success = second.success →
      first.revertReason = second.revertReason →
      (outcome first).map seen = (outcome second).map seen)
    (room : state.HasRoom confirmations) (records : Records)
    (roomAfter : (state.withRecords records).HasRoom confirmations) :
    Alike contracts target data program seen state (state.withRecords records) := by
  have executed : execute contracts (state.withRecords records) relayerAccount target data = _ :=
    execute_withRecords state records relayerAccount target data
  by_cases crashes : execute contracts state relayerAccount target data = .error .crashed
  · rw [crashes] at executed
    exact .crashed crashes (submits.stalls room.unlocked crashes)
      (submits.stalls roomAfter.unlocked executed)
  · have finishes : Finishes contracts (state.withRecords records) target data := by
      unfold Finishes
      rwa [executed, Ne, Outcome.map_eq_error]
    obtain ⟨first, ended⟩ := submits.yields room crashes
    obtain ⟨second, ended'⟩ := submits.yields roomAfter finishes
    obtain ⟨last, settledAlike⟩ :=
      @settled_withRecords contracts state target data records second first
    rw [settledAlike] at ended'
    obtain ⟨sameSuccess, sameReason⟩ :=
      @clientReceipt_withRecords contracts state target data records
    exact .ended ended ended' (same _ _ sameSuccess sameReason)

theorem takenBack (submits : Submits program target data confirmations outcome)
    (unviewed : Unviewed data)
    (same : ∀ first second : Receipt, first.success = second.success →
      first.revertReason = second.revertReason →
      (outcome first).map seen = (outcome second).map seen)
    (room : state.HasRoom confirmations)
    (failed : Transaction.outcome contracts ⟨state, target, data⟩ = .error (.reverted revert)) :
    ∃ receipt after, program.Yields (ledger contracts) state (outcome receipt) after ∧
      receipt.success = false ∧
      TakenBack contracts target data confirmations revert program seen state receipt after := by
  have stopped := execute_of_outcome failed
  obtain ⟨success, reason⟩ := clientReceipt_failed stopped
  have finishes : Finishes contracts state target data := by
    unfold Finishes
    rw [stopped]
    simp
  obtain ⟨height, submitted⟩ := submits.yields room finishes
  obtain ⟨records, moved⟩ : ∃ records,
      settled contracts state target data height = state.withRecords records := by
    unfold settled effect
    rw [stopped]
    exact ⟨_, rfl⟩
  have stillStopped : execute contracts (state.withRecords records) relayerAccount target data
      = .error (.reverted revert) := by
    rw [execute_withRecords, stopped]
    rfl
  refine ⟨_, _, submitted, success, reason, ?_, ?_, ?_, ⟨records, moved⟩, ?_⟩
  · unfold Receipt.result
    rw [if_neg (by simp [success]), reason, Option.getD_some]
  · exact (Table.get?_insert _ _ _ _).trans (if_pos rfl)
  · rw [moved, call_eq_error unviewed stillStopped]
  · intro later room roomAfter
    rw [moved] at roomAfter ⊢
    obtain ⟨other, ran⟩ := @runFrom_withRecords contracts later state records
    rw [ran] at roomAfter ⊢
    exact submits.alike same room other roomAfter

theorem takenBack_of_result {custody : Custody} {program : ClientM Receipt}
    (submits : Submits program custody.address data custody.confirmations Receipt.result)
    (unviewed : Unviewed data) (room : state.HasRoom custody.confirmations)
    (failed : Transaction.outcome contracts ⟨state, custody.address, data⟩
      = .error (.reverted revert)) :
    ∃ receipt after,
      program.Yields (ledger contracts) state (.error (.ofRevert revert.reason)) after ∧
      TakenBack contracts custody.address data custody.confirmations revert program Receipt.success
        state receipt after := by
  have same : ∀ first second : Receipt, first.success = second.success →
      first.revertReason = second.revertReason →
      first.result.map Receipt.success = second.result.map Receipt.success := by
    intro first second success reason
    unfold Receipt.result
    rw [success, reason]
    split <;> simp [Except.map, success]
  obtain ⟨receipt, after, ended, -, back⟩ := submits.takenBack unviewed same room failed
  rw [back.surfaced] at ended
  exact ⟨receipt, after, ended, back⟩

theorem dispatch {context : RelayContext} {request : Request} {policy : AccountPolicy}
    {set : SignatureSet} {encoded : EncodedRequest}
    (accepted : context.encode request = .ok encoded)
    (spelled : encoded.relayCalldata policy set = .ok data) :
    Submits (context.dispatch request policy set) context.config.relayAddress data
      context.config.effectiveConfirmations fun receipt => .ok (.ofReceipt receipt) where
  yields room _ := RelayContext.yields_dispatch accepted spelled room
  stalls _ crashed := absurd crashed (finishes_relayCalldata spelled)

theorem propose {custody : Custody} {mode : BatchMode} :
    Submits (custody.propose target data mode) custody.address
      (Custody.proposeCalldata target data mode) custody.confirmations Receipt.result where
  yields room finishes := by
    obtain ⟨height, -, proposed⟩ := Custody.yields_propose finishes room
    exact ⟨height, proposed⟩
  stalls unlocked crashed := Custody.stalls_propose unlocked crashed

theorem bump {counter : Counter} (submits : Submits program target data confirmations outcome) :
    Submits (ClientM.bump counter >>= fun _ => program) target data confirmations outcome where
  yields room finishes := by
    obtain ⟨height, ended⟩ := submits.yields room finishes
    exact ⟨height, ClientM.yields_bump_bind ended⟩
  stalls unlocked crashed := ClientM.stalls_bump_bind (submits.stalls unlocked crashed)

end Submits

/-- An operation of the client whose transaction fails changes nothing but the records of the chain.
The reason with which the execution stopped, which the chain does not store, is found word for word
by a read-only replay and reported as the failure that it stands for. Once the cause is cleared, and
whatever else happened, the same operation does what it would do had it never been tried. A signed
request never crashes the chain, so that it ends when it is repeated. -/
theorem failed_transaction_changes_nothing (contracts : Contracts) (state : State) :
    (∀ (context : RelayContext) (request : Request) (policy : AccountPolicy) (set : SignatureSet)
        (encoded : EncodedRequest) (data : Bytes) (revert : Revert),
      context.encode request = .ok encoded → encoded.relayCalldata policy set = .ok data →
      state.HasRoom context.config.effectiveConfirmations →
      Transaction.outcome contracts ⟨state, context.config.relayAddress, data⟩
        = .error (.reverted revert) →
      (∀ later, Finishes contracts later context.config.relayAddress data) ∧
      ∃ receipt after,
        (context.dispatch request policy set).Yields (ledger contracts) state
          (.ok ⟨.reverted, receipt⟩) after ∧
        TakenBack contracts context.config.relayAddress data context.config.effectiveConfirmations
          revert (context.dispatch request policy set)
          (fun outcome => (outcome.state, outcome.receipt.revertReason)) state receipt after) ∧
    (∀ (custody : Custody) (target : Address) (data : Bytes) (revert : Revert),
      let proposal := Custody.proposeCalldata target data .direct
      state.HasRoom custody.confirmations →
      Transaction.outcome contracts ⟨state, custody.address, proposal⟩
        = .error (.reverted revert) →
      ∃ receipt after,
        (custody.executeCall target data).Yields (ledger contracts) state
          (.error (.ofRevert revert.reason)) after ∧
        TakenBack contracts custody.address proposal custody.confirmations revert
          (custody.executeCall target data) Receipt.success state receipt after) ∧
    (∀ (custody : Custody) (operations : List BatchOperation) (blob : Bytes) (revert : Revert),
      let proposal :=
        Custody.proposeCalldata custody.multiSend (Batch.multiSendCalldata blob) .delegated
      Batch.encode operations = .ok blob → state.HasRoom custody.confirmations →
      Transaction.outcome contracts ⟨state, custody.address, proposal⟩
        = .error (.reverted revert) →
      ∃ receipt after,
        (custody.executeBatch operations).Yields (ledger contracts) state
          (.error (.ofRevert revert.reason)) after ∧
        TakenBack contracts custody.address proposal custody.confirmations revert
          (custody.executeBatch operations) Receipt.success state receipt after) := by
  refine ⟨?_, ?_, ?_⟩
  · intro context request policy set encoded data revert accepted spelled room failed
    have same : ∀ first second : Receipt, first.success = second.success →
        first.revertReason = second.revertReason →
        (Except.ok (.ofReceipt first) : Except RelayError RelayOutcome).map
            (fun outcome => (outcome.state, outcome.receipt.revertReason))
          = (Except.ok (.ofReceipt second) : Except RelayError RelayOutcome).map
            fun outcome => (outcome.state, outcome.receipt.revertReason) := by
      intro first second success reason
      simp only [Except.map, RelayOutcome.ofReceipt, success, reason]
    obtain ⟨receipt, after, ended, success, back⟩ := (Submits.dispatch accepted spelled).takenBack
      (EncodedRequest.unviewed_relayCalldata spelled) same room failed
    have reverted : RelayOutcome.ofReceipt receipt = ⟨.reverted, receipt⟩ := by
      unfold RelayOutcome.ofReceipt
      rw [if_neg (by simp [success])]
    rw [reverted] at ended
    exact ⟨fun _ => finishes_relayCalldata spelled, receipt, after, ended, back⟩
  · intro custody target data revert proposal room failed
    exact Submits.propose.bump.takenBack_of_result (Custody.unviewed_proposeCalldata _ _ _) room
      failed
  · intro custody operations blob revert proposal packed room failed
    rw [Custody.executeBatch_eq packed]
    exact Submits.propose.bump.takenBack_of_result (Custody.unviewed_proposeCalldata _ _ _) room
      failed

/-- A request with a number that is not live, a call to an account without a contract, and a batch
with that call. -/
theorem failed_transaction_changes_nothing_burn :
    let burn : OperationType := ⟨"BurnToken", [.sender, .nonce, ⟨"tokenId", .uint 256⟩], 0, 0⟩
    let domain : Domain := ⟨"Relay", "1", 1, 1⟩
    let contracts : Contracts := ⟨1, 1, 2, 3, ⟨[burn]⟩, domain⟩
    let context : RelayContext := ⟨{ relayAddress := 1 }, domain, ⟨[burn]⟩⟩
    let custody : Custody := ⟨2, 0, 3⟩
    let state : State :=
      { registered := ({} : Table 256 String).insert burn.typeHash burn.typeString }
    let request : Request := ⟨"BurnToken", 9, 7, [("tokenId", .integer 5)]⟩
    let set : SignatureSet := ⟨[⟨9, [1, 2]⟩]⟩
    let stranger : BatchOperation := ⟨.direct, 5, [1, 2, 3, 4]⟩
    (∃ receipt after,
      (context.dispatch request .singleKey set).Yields (ledger contracts) state
        (.ok ⟨.reverted, receipt⟩) after ∧
      receipt.revertReason = some "Relay: invalid nonce" ∧
      ∃ records, after = state.withRecords records) ∧
    (∃ after,
      (custody.executeCall stranger.target stranger.payload).Yields (ledger contracts) state
        (.error (.ofRevert (Revert.noContract 5).reason)) after ∧
      ∃ records, after = state.withRecords records) ∧
    ∃ after,
      (custody.executeBatch [stranger]).Yields (ledger contracts) state
        (.error (.ofRevert (Revert.noContract 5).reason)) after ∧
      ∃ records, after = state.withRecords records := by
  intro burn domain contracts context custody state request set stranger
  obtain ⟨dispatched, called, batched⟩ := failed_transaction_changes_nothing contracts state
  have shallow : state.HasRoom 0 := ⟨rfl, fun deep => absurd deep (by decide)⟩
  refine ⟨?_, ?_, ?_⟩
  · let encoded : EncodedRequest := ⟨burn.typeHash, 9, 7, Abi.encode [.uint 5],
      messageHash burn 9 7 (Abi.encode [.uint 5]) [.uint 5]⟩
    let data := Abi.encodeCall executeSingleSignature [encoded.toAbi, .bytes [1, 2]]
    have accepted : context.encode request = .ok encoded := by decide +kernel
    have stopped : (fun _ => ()) <$> Transaction.outcome contracts ⟨state, 1, data⟩
      = .error (.reverted .wrongNonce) := by decide +kernel
    obtain ⟨-, receipt, after, ended, back⟩ :=
      dispatched context request .singleKey set encoded data .wrongNonce accepted rfl shallow
        (Outcome.map_eq_error.1 stopped)
    exact ⟨receipt, after, ended, back.told, back.kept⟩
  · have stopped : (fun _ => ()) <$> Transaction.outcome contracts
      ⟨state, 2, Custody.proposeCalldata 5 [1, 2, 3, 4] .direct⟩
        = .error (.reverted (.noContract 5)) := by decide +kernel
    obtain ⟨receipt, after, ended, back⟩ :=
      called custody 5 [1, 2, 3, 4] (.noContract 5) shallow (Outcome.map_eq_error.1 stopped)
    exact ⟨after, ended, back.kept⟩
  · have stopped : (fun _ => ()) <$> Transaction.outcome contracts
      ⟨state, 2, Custody.proposeCalldata 3 (Batch.multiSendCalldata (Batch.encodeOne stranger))
        .delegated⟩ = .error (.reverted (.noContract 5)) := by decide +kernel
    obtain ⟨receipt, after, ended, back⟩ := batched custody [stranger] (Batch.encodeOne stranger)
      (.noContract 5) (by rfl) shallow (Outcome.map_eq_error.1 stopped)
    exact ⟨after, ended, back.kept⟩

end Chain

end GaslessRelay
