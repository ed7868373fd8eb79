import GaslessRelay.Proofs.ExecutionHistory

/-!
What a chain records about its transactions and what they take effect on. No execution reads the
records, so it takes effect, or fails, in the same way whatever they are (`execute_withRecords`).
-/

namespace GaslessRelay.Chain

open Outcome

/-- The height of the chain, and what became of its transactions. -/
structure Records where
  block : UInt64
  transactions : Nat
  receipts : Table 256 Receipt

namespace State

def records (state : State) : Records := ⟨state.block, state.transactions, state.receipts⟩

/-- A state of the same accounts and contracts, with other records. -/
def withRecords (state : State) (records : Records) : State :=
  { state with
    block := records.block
    transactions := records.transactions
    receipts := records.receipts }

@[simp] theorem withRecords_withRecords (state : State) (records other : Records) :
    (state.withRecords records).withRecords other = state.withRecords other := rfl

@[simp] theorem records_withRecords (state : State) (records : Records) :
    (state.withRecords records).records = records := rfl

@[simp] theorem withRecords_records (state : State) : state.withRecords state.records = state := rfl

end State

variable {contracts : Contracts}

/-- The operation that a relay call executes, or why it executes none. -/
def relayedOperation (contracts : Contracts) (state : State) (call : RelayCall) :
    Except Revert OperationType :=
  if state.registered.contains call.request.typeHash then
    match contracts.catalog.byTypeHash? call.request.typeHash with
    | none => .error .operationNotRegistered
    | some operation => do
      let structHash ← decoded (call.request.structHash operation)
      let digest := TypedData.signingDigest contracts.domain.separator structHash
      if call.request.nonce.toNat = (state.nonce call.request.sender).toNat then
        checkSignatures state call digest
        match state.moduleRevert with
        | some reason => .error (.module reason)
        | none => return operation
      else .error .wrongNonce
  else .error .operationNotRegistered

/-- A relay call is checked first, and then moves the counter and the log. -/
theorem executeRelay_eq (state : State) (call : RelayCall) :
    executeRelay contracts state call
      = (fun operation => state.relayed operation.key call.request.sender)
        <$> relayedOperation contracts state call := by
  unfold relayedOperation
  by_cases registered : state.registered.contains call.request.typeHash = true
  · simp only [executeRelay, registered, Bool.not_true, Bool.false_eq_true, if_false, if_true]
    cases contracts.catalog.byTypeHash? call.request.typeHash with
    | none => rfl
    | some operation =>
      dsimp only
      cases decoded (call.request.structHash operation) with
      | error revert => rfl
      | ok structHash =>
        by_cases live : call.request.nonce.toNat = (state.nonce call.request.sender).toNat
        · simp only [ok_bind, live, ne_eq, not_true, if_false, if_true]
          cases checkSignatures state call
            (TypedData.signingDigest contracts.domain.separator structHash) with
          | error revert => rfl
          | ok _ =>
            simp only [ok_bind]
            cases module : state.moduleRevert with
            | some reason => rfl
            | none => simp only [State.relayed, module, pure_eq_ok, map_ok]
        · simp only [ok_bind, ne_eq, live, not_false_eq_true, if_true, if_false, error_bind, map_error]
  · simp only [executeRelay, registered, Bool.not_false, if_true, error_bind, Bool.false_eq_true,
      if_false, map_error]

theorem executeRelay_withRecords (state : State) (records : Records) (call : RelayCall) :
    executeRelay contracts (state.withRecords records) call
      = (·.withRecords records) <$> executeRelay contracts state call := by
  have checked : relayedOperation contracts (state.withRecords records) call
    = relayedOperation contracts state call := rfl
  rw [executeRelay_eq, executeRelay_eq, checked]
  cases relayedOperation contracts state call <;> rfl

theorem executeRegister_withRecords (state : State) (records : Records) (arguments : Bytes) :
    executeRegister (state.withRecords records) arguments
      = (·.withRecords records) <$> executeRegister state arguments := by
  unfold executeRegister
  cases decoded (Abi.decode [.string, .string, .address, .fixedBytes 4] arguments) with
  | error revert => rfl
  | ok values =>
    simp only [ok_bind]
    split
    · rename_i typeString _ _
      by_cases known : state.registered.contains (Digest.keccakText typeString) = true
      · refine (if_pos known).trans ?_
        rw [if_pos known]
        rfl
      · refine (if_neg known).trans ?_
        rw [if_neg known]
        rfl
    · rfl

theorem executeUnregister_withRecords (state : State) (records : Records) (arguments : Bytes) :
    executeUnregister (state.withRecords records) arguments
      = (·.withRecords records) <$> executeUnregister state arguments := by
  unfold executeUnregister
  cases decoded (Abi.decode [.fixedBytes 32] arguments) with
  | error revert => rfl
  | ok values =>
    simp only [ok_bind]
    split
    · rename_i typeHash
      by_cases known : state.registered.contains typeHash = true
      · refine (if_pos known).trans ?_
        rw [if_pos known]
        rfl
      · refine (if_neg known).trans ?_
        rw [if_neg known]
        rfl
    · rfl

theorem executeEdits_withRecords (state : State) (records : Records) (arguments : Bytes) :
    executeEdits (state.withRecords records) arguments
      = (·.withRecords records) <$> executeEdits state arguments := by
  unfold executeEdits
  cases (decodeEdits arguments).mapError Halt.ofStop with
  | error halt => rfl
  | ok edits =>
    have table : (state.withRecords records).dispatch = state.dispatch := rfl
    simp only [ok_bind, table]
    cases reverting (applyEdits state.dispatch edits) <;> rfl

theorem executeOwned_withRecords (state : State) (records : Records) (selector : Selector)
    (arguments : Bytes) :
    executeOwned (state.withRecords records) selector arguments
      = (·.withRecords records) <$> executeOwned state selector arguments := by
  unfold executeOwned
  split_ifs
  · rw [executeRegister_withRecords, reverting_map]
  · rw [executeUnregister_withRecords, reverting_map]
  · exact executeEdits_withRecords state records arguments
  · rfl

/-- Executions of nested calls take effect whatever the records are. -/
def Nested.IgnoresRecords (nested : Nested) : Prop :=
  ∀ state records sender target data, nested (state.withRecords records) sender target data
    = (·.withRecords records) <$> nested state sender target data

theorem executeBatch_withRecords {nested : Nested} (ignores : nested.IgnoresRecords)
    (state : State) (records : Records) (calls : List BatchOperation) :
    executeBatch contracts nested (state.withRecords records) calls
      = (·.withRecords records) <$> executeBatch contracts nested state calls := by
  unfold executeBatch
  induction calls generalizing state with
  | nil => rfl
  | cons call rest ih =>
    rw [List.foldlM_cons, List.foldlM_cons, ignores]
    cases nested state contracts.custody call.target call.payload with
    | error halt => rfl
    | ok next => exact ih next

theorem executeWithin_ignoresRecords (limit : Nat) :
    (executeWithin contracts limit).IgnoresRecords := by
  induction limit with
  | zero => exact fun _ _ _ _ _ => rfl
  | succ limit ih =>
    intro state records sender target data
    unfold executeWithin
    cases reverting (splitSelector data) with
    | error halt => rfl
    | ok parts =>
      simp only [ok_bind]
      by_cases proposal :
          target = contracts.custody ∧ parts.1 = Abi.functionSelector Custody.proposeSignature
      · rw [if_pos proposal, if_pos proposal]
        unfold executeProposal
        cases reverting (proposedCalls contracts parts.2) with
        | error halt => rfl
        | ok calls => exact executeBatch_withRecords ih state records calls
      · rw [if_neg proposal, if_neg proposal]
        by_cases atRelay : target = contracts.relay
        · rw [if_neg (not_not.2 atRelay), if_neg (not_not.2 atRelay)]
          cases RelayCall.decode data with
          | ok call =>
            dsimp only
            rw [executeRelay_withRecords, reverting_map]
          | error error =>
            dsimp only
            split_ifs
            · rfl
            · exact executeOwned_withRecords state records parts.1 parts.2
        · rw [if_pos atRelay, if_pos atRelay]
          rfl

/-- An execution does not depend on the records of the chain, and keeps them. -/
theorem execute_withRecords (state : State) (records : Records) (sender target : Address)
    (data : Bytes) :
    execute contracts (state.withRecords records) sender target data
      = (·.withRecords records) <$> execute contracts state sender target data :=
  executeWithin_ignoresRecords (data.length + 1) state records sender target data

theorem view?_withRecords (state : State) (records : Records) (target : Address) (data : Bytes) :
    view? contracts (state.withRecords records) target data
      = (view? contracts state target data).map fun (answer, after) =>
        (answer, after.withRecords records) := by
  unfold view?
  cases (splitSelector data).toOption with
  | none => rfl
  | some parts =>
    simp only [Option.bind_eq_bind, Option.bind_some]
    by_cases counter :
        target = contracts.relay ∧ parts.1 = Abi.functionSelector Account.getNonceSignature
    · rw [if_pos counter, if_pos counter]
      cases (Abi.addressAt parts.2 0).toOption with
      | none => rfl
      | some sender =>
        simp only [Option.bind_some]
        by_cases current : state.staleReads = 0
        · refine (if_pos current).trans ?_
          rw [if_pos current]
          rfl
        · refine (if_neg current).trans ?_
          rw [if_neg current]
          rfl
    · rw [if_neg counter, if_neg counter]
      split_ifs <;> rfl

theorem call_withRecords (state : State) (records : Records) (target : Address) (data : Bytes) :
    call contracts (state.withRecords records) target data
      = ((call contracts state target data).1,
        (call contracts state target data).2.withRecords records) := by
  unfold call
  rw [view?_withRecords, execute_withRecords]
  cases view? contracts state target data with
  | some answered => rfl
  | none =>
    rcases execute contracts state relayerAccount target data with (revert | _) | after <;> rfl

/-- The state in which an execution ends; one that fails has no effect. -/
def effect (contracts : Contracts) (state : State) (target : Address) (data : Bytes) : State :=
  match execute contracts state relayerAccount target data with
  | .ok after => after
  | .error _ => state

/-- The receipt that the chain stores for a transaction, which never has a reason. -/
def storedReceipt (contracts : Contracts) (state : State) (target : Address) (data : Bytes) :
    Receipt where
  transaction := transactionHash state.mined.block data
  block := state.mined.block
  success := (execute contracts state relayerAccount target data).isOk
  revertReason := none

/-- What the chain has recorded after one more transaction. -/
def recordsAfter (contracts : Contracts) (state : State) (target : Address) (data : Bytes) :
    Records where
  block := state.mined.block
  transactions := state.mined.transactions
  receipts := state.receipts.insert (transactionHash state.mined.block data)
    (storedReceipt contracts state target data)

theorem poisoned_effect (state : State) (target : Address) (data : Bytes) :
    (effect contracts state target data).poisoned = state.poisoned := by
  unfold effect
  split
  · rename_i after accepted
    exact poisoned_of_execute accepted
  · rfl

theorem effect_withRecords (state : State) (records : Records) (target : Address) (data : Bytes) :
    effect contracts (state.withRecords records) target data
      = (effect contracts state target data).withRecords records := by
  unfold effect
  rw [execute_withRecords]
  cases execute contracts state relayerAccount target data <;> rfl

/-- The execution of a transaction does not crash. -/
def Finishes (contracts : Contracts) (state : State) (target : Address) (data : Bytes) : Prop :=
  execute contracts state relayerAccount target data ≠ .error .crashed

/-- What the chain has recorded in the block of the next transaction. -/
def minedRecords (state : State) : Records :=
  ⟨state.mined.block, state.mined.transactions, state.receipts⟩

theorem execute_mined (state : State) (target : Address) (data : Bytes) :
    execute contracts state.mined relayerAccount target data
      = (·.withRecords (minedRecords state))
        <$> execute contracts state relayerAccount target data :=
  execute_withRecords state (minedRecords state) _ _ _

/-- A transaction has its effect and is recorded, whether it succeeds or is taken back. -/
theorem send_eq_effect {state : State} {target : Address} {data : Bytes}
    (finishes : Finishes contracts state target data) :
    send contracts state target data
      = (some (transactionHash state.mined.block data),
        (effect contracts state target data).withRecords
          (recordsAfter contracts state target data)) := by
  have mined := @execute_mined contracts state target data
  rcases outcome : execute contracts state relayerAccount target data with (revert | _) | after
  · rw [outcome, map_error] at mined
    rw [send_of_reverted mined]
    unfold effect recordsAfter storedReceipt
    rw [outcome]
    rfl
  · exact absurd outcome finishes
  · rw [outcome, map_ok] at mined
    rw [send_of_ok mined]
    unfold effect recordsAfter storedReceipt
    rw [outcome]
    rfl

/-- A transaction that crashes is in no block that anyone can see. -/
theorem send_eq_poison {state : State} {target : Address} {data : Bytes}
    (crashed : execute contracts state relayerAccount target data = .error .crashed) :
    send contracts state target data = (none, state.poison.withRecords (minedRecords state)) := by
  have mined := @execute_mined contracts state target data
  rw [crashed, map_error] at mined
  exact send_of_crashed mined

theorem send_withRecords (state : State) (records : Records) (target : Address) (data : Bytes) :
    ∃ later, (send contracts (state.withRecords records) target data).2
      = (send contracts state target data).2.withRecords later := by
  have same : execute contracts (state.withRecords records) relayerAccount target data = _ :=
    execute_withRecords state records relayerAccount target data
  by_cases crashed : execute contracts state relayerAccount target data = .error .crashed
  · rw [crashed, map_error] at same
    exact ⟨_, by rw [send_eq_poison same, send_eq_poison crashed]; rfl⟩
  · have finishes : Finishes contracts (state.withRecords records) target data := by
      unfold Finishes
      rwa [same, Ne, map_eq_error]
    exact ⟨_, by rw [send_eq_effect finishes, send_eq_effect crashed, effect_withRecords]; rfl⟩

theorem update_withRecords (state : State) (records : Records) {change : State → State}
    (ignores : change (state.withRecords records) = (change state).withRecords records) :
    (state.withRecords records).update change = (state.update change).withRecords records := by
  cases unlocked : state.poisoned with
  | true =>
    have still : (state.withRecords records).poisoned = true := unlocked
    rw [State.update_of_poisoned still, State.update_of_poisoned unlocked]
  | false =>
    have still : (state.withRecords records).poisoned = false := unlocked
    rw [State.update_of_unlocked still, State.update_of_unlocked unlocked, ignores]

theorem act_withRecords (state : State) (records : Records) (action : Action) :
    ∃ later, act contracts (state.withRecords records) action
      = (act contracts state action).withRecords later := by
  cases unlocked : state.poisoned with
  | true =>
    have still : (state.withRecords records).poisoned = true := unlocked
    exact ⟨records, by rw [act_of_poisoned unlocked, act_of_poisoned still]⟩
  | false =>
    have still : (state.withRecords records).poisoned = false := unlocked
    cases action with
    | ask request =>
      cases request with
      | call target data =>
        refine ⟨records, ?_⟩
        rw [act, act, answer_call unlocked, answer_call still, call_withRecords]
      | send target data =>
        rw [act_send unlocked, act_send still]
        exact send_withRecords state records target data
      | receipt transaction =>
        exact ⟨records, by rw [act, act, answer_receipt unlocked, answer_receipt still]⟩
      | blockNumber =>
        refine ⟨{ records with block := records.block + 1 }, ?_⟩
        rw [act, act, answer_blockNumber unlocked, answer_blockNumber still]
        rfl
      | chainId => exact ⟨records, rfl⟩
    | setOwnerSet account owners threshold => exact ⟨records, update_withRecords state records rfl⟩
    | setModuleRevert reason => exact ⟨records, update_withRecords state records rfl⟩
    | lagReads count => exact ⟨records, update_withRecords state records rfl⟩

theorem runFrom_withRecords (actions : List Action) (state : State) (records : Records) :
    ∃ later, runFrom contracts (state.withRecords records) actions
      = (runFrom contracts state actions).withRecords later := by
  induction actions generalizing state records with
  | nil => exact ⟨records, rfl⟩
  | cons action rest ih =>
    obtain ⟨next, acted⟩ := @act_withRecords contracts state records action
    obtain ⟨later, ran⟩ := ih (act contracts state action) next
    refine ⟨later, ?_⟩
    unfold runFrom at ran ⊢
    rw [List.foldl_cons, List.foldl_cons, acted, ran]

end GaslessRelay.Chain
