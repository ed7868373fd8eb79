import GaslessRelay.Chain.Execution
import GaslessRelay.Proofs.Outcome
import Mathlib.Data.List.Forall2
import Mathlib.Tactic.SplitIfs

/-!
What an execution does to the chain, in terms of the relay calls that it makes. The messages that
still wait stand in a list, and a proposal is replaced there by the calls that it holds, so that
nesting and batches become one sequence of steps. Main statement: every execution that succeeds is
such a sequence (`executes_of_execute`), and it logs one entry for each of its relay calls
(`Executes.executed_eq`).
-/

namespace GaslessRelay.Chain

open Outcome

/-- The signatures of a relay call bind its sender to a digest: the sender signed it, or enough of
the sender's owners did, each of them once. -/
inductive Authorises (state : State) (call : RelayCall) (digest : Hash) : Prop where
  | single (signature : Bytes) (path : call.thresholdPath = false)
      (sole : call.signatures = [signature])
      (recovers : Account.recoverSigner digest signature = .ok call.request.sender)
  | threshold (set : OwnerSet) (signers : List Address) (path : call.thresholdPath = true)
      (owned : state.ownerSets.get? call.request.sender = some set)
      (recovers : List.Forall₂
        (fun signature signer => Account.recoverSigner digest signature = .ok signer)
        call.signatures signers)
      (ascending : signers.Pairwise (· < ·))
      (members : ∀ signer ∈ signers, signer ∈ set.owners)
      (enough : set.threshold.toNat ≤ signers.length)

theorem decoded_eq_ok {α : Type} {result : Except CodecError α} {value : α} :
    decoded result = .ok value ↔ result = .ok value := mapError_eq_ok

@[simp] theorem reverting_ok {α : Type} (value : α) : reverting (.ok value) = .ok value := rfl

@[simp] theorem reverting_error {α : Type} (revert : Revert) :
    reverting (.error revert : Except Revert α) = .error (.reverted revert) := rfl

theorem reverting_map {α β : Type} (change : α → β) (result : Except Revert α) :
    reverting (change <$> result) = change <$> reverting result := by
  cases result <;> rfl

theorem reverting_ne_crashed {α : Type} (result : Except Revert α) :
    reverting result ≠ .error .crashed := by
  intro same
  cases result with
  | ok value => cases same
  | error revert => cases same

theorem reverting_eq_ok {α : Type} {result : Except Revert α} {value : α} :
    reverting result = .ok value ↔ result = .ok value := mapError_eq_ok

/-- Every accepted signer is above the last one, so that the signers ascend. -/
theorem checkOwners_eq_ok {digest : Hash} {owners : List Address} {last : Address}
    {signatures : List Bytes} (accepted : checkOwners digest owners last signatures = .ok ()) :
    ∃ signers, List.Forall₂
        (fun signature signer => Account.recoverSigner digest signature = .ok signer)
        signatures signers
      ∧ signers.Pairwise (· < ·) ∧ (∀ signer ∈ signers, last < signer)
      ∧ ∀ signer ∈ signers, signer ∈ owners := by
  induction signatures generalizing last with
  | nil => exact ⟨[], .nil, .nil, by simp, by simp⟩
  | cons signature rest ih =>
    unfold checkOwners at accepted
    obtain ⟨signer, recovered, accepted⟩ := bind_eq_ok.1 accepted
    split_ifs at accepted with refused
    have above : last < signer := by
      have notBelow : ¬ signer ≤ last := fun below => refused (.inl below)
      exact BitVec.not_le.1 notBelow
    have member : signer ∈ owners := by
      have notStranger : ¬ (!owners.contains signer) = true :=
        fun stranger => refused (.inr stranger)
      simpa using notStranger
    obtain ⟨signers, recovers, ascending, bounded, members⟩ := ih accepted
    refine ⟨signer :: signers, .cons (mapError_eq_ok.1 recovered) recovers,
      .cons bounded ascending, ?_, ?_⟩
    · intro other present
      rcases List.mem_cons.1 present with rfl | later
      · exact above
      · exact BitVec.lt_trans above (bounded other later)
    · intro other present
      rcases List.mem_cons.1 present with rfl | later
      · exact member
      · exact members other later

theorem authorises_of_checkSignatures {state : State} {call : RelayCall} {digest : Hash}
    (sole : call.thresholdPath = false → ∃ signature, call.signatures = [signature])
    (accepted : checkSignatures state call digest = .ok ()) : Authorises state call digest := by
  unfold checkSignatures at accepted
  by_cases path : call.thresholdPath = true
  · rw [if_pos path] at accepted
    split at accepted
    · cases accepted
    · rename_i set owned
      obtain ⟨_, checked, accepted⟩ := bind_eq_ok.1 accepted
      split_ifs at accepted with few
      obtain ⟨signers, recovers, ascending, -, members⟩ := checkOwners_eq_ok checked
      have enough : set.threshold.toNat ≤ signers.length := by
        have lengths := recovers.length_eq
        omega
      exact .threshold set signers path owned recovers ascending members enough
  · have path : call.thresholdPath = false := by simpa using path
    obtain ⟨signature, single⟩ := sole path
    rw [if_neg (by simp [path]), single] at accepted
    simp only at accepted
    split at accepted
    · rename_i signer recovered
      split_ifs at accepted with same
      exact .single signature path single (same ▸ recovered)
    · cases accepted

/-- A state after one more request of a sender. -/
def State.relayed (state : State) (key : String) (sender : Address) : State :=
  { state with
    nonces := state.nonces.insert sender (state.nonce sender + 1)
    executed := state.executed ++ [(key, sender)] }

/-- Everything that the relay checks before it executes a request, and all that it changes. -/
theorem executeRelay_eq_ok {contracts : Contracts} {state after : State} {call : RelayCall}
    (accepted : executeRelay contracts state call = .ok after) :
    ∃ operation structHash, state.registered.contains call.request.typeHash = true
      ∧ contracts.catalog.byTypeHash? call.request.typeHash = some operation
      ∧ call.request.structHash operation = .ok structHash
      ∧ call.request.nonce.toNat = (state.nonce call.request.sender).toNat
      ∧ checkSignatures state call
          (TypedData.signingDigest contracts.domain.separator structHash) = .ok ()
      ∧ after = state.relayed operation.key call.request.sender := by
  by_cases registered : state.registered.contains call.request.typeHash = true
  · by_cases live : call.request.nonce.toNat = (state.nonce call.request.sender).toNat
    · simp only [executeRelay, registered, live, Bool.not_true, Bool.false_eq_true, if_false, ne_eq,
        not_true] at accepted
      split at accepted
      · cases accepted
      · rename_i operation found
        obtain ⟨structHash, hashed, accepted⟩ := bind_eq_ok.1 accepted
        obtain ⟨_, signed, accepted⟩ := bind_eq_ok.1 accepted
        split at accepted
        · cases accepted
        · exact ⟨operation, structHash, registered, found, decoded_eq_ok.1 hashed, live, signed,
            (Except.ok.inj accepted).symm⟩
    · simp only [executeRelay, registered, live, Bool.not_true, Bool.false_eq_true, if_false, ne_eq,
        not_false_eq_true, if_true, error_bind] at accepted
      split at accepted
      · cases accepted
      · obtain ⟨_, _, accepted⟩ := bind_eq_ok.1 accepted
        cases accepted
  · simp [executeRelay, registered] at accepted

/-- The owner of the relay changes the registry and the dispatch table, and nothing else. -/
theorem executeOwned_eq_ok {state after : State} {selector : Selector} {arguments : Bytes}
    (accepted : executeOwned state selector arguments = .ok after) :
    ∃ registered dispatch,
      after = { state with registered := registered, dispatch := dispatch } := by
  unfold executeOwned at accepted
  split_ifs at accepted
  · obtain ⟨values, -, accepted⟩ := bind_eq_ok.1 (reverting_eq_ok.1 accepted)
    split at accepted
    · dsimp only at accepted
      split_ifs at accepted
      cases accepted
      exact ⟨_, _, rfl⟩
    · cases accepted
  · obtain ⟨values, -, accepted⟩ := bind_eq_ok.1 (reverting_eq_ok.1 accepted)
    split at accepted
    · split_ifs at accepted
      cases accepted
      exact ⟨_, _, rfl⟩
    · cases accepted
  · obtain ⟨edits, -, accepted⟩ := bind_eq_ok.1 accepted
    obtain ⟨table, -, accepted⟩ := bind_eq_ok.1 accepted
    cases accepted
    exact ⟨_, _, rfl⟩

/-- A call that waits for its execution. -/
structure Message where
  sender : Address
  target : Address
  data : Bytes
deriving DecidableEq

/-- The messages of a proposal: the custody account makes each call. -/
def Contracts.messages (contracts : Contracts) (calls : List BatchOperation) : List Message :=
  calls.map fun call => ⟨contracts.custody, call.target, call.payload⟩

/-- A relay call that was executed, its operation type, and the state just before it. -/
structure Execution where
  before : State
  call : RelayCall
  operation : OperationType

namespace Execution

def sender (execution : Execution) : Address := execution.call.request.sender

def nonce (execution : Execution) : Word := execution.call.request.nonce

/-- What the chain logs. -/
def entry (execution : Execution) : String × Address := (execution.operation.key, execution.sender)

end Execution

/-- Waiting messages take one state to another, and make the given relay calls on the way. -/
inductive Executes (contracts : Contracts) :
    State → List Message → List Execution → State → Prop where
  | done (state : State) : Executes contracts state [] [] state
  | relayed {state next after : State} {sender : Address} {data : Bytes} {call : RelayCall}
      {operation : OperationType} {rest : List Message} {history : List Execution}
      (spelled : RelayCall.decode data = .ok call)
      (known : contracts.catalog.byTypeHash? call.request.typeHash = some operation)
      (accepted : executeRelay contracts state call = .ok next)
      (later : Executes contracts next rest history after) :
      Executes contracts state (⟨sender, contracts.relay, data⟩ :: rest)
        (⟨state, call, operation⟩ :: history) after
  | owned {state next after : State} {selector : Selector} {arguments data : Bytes}
      {rest : List Message} {history : List Execution}
      (split : splitSelector data = .ok (selector, arguments))
      (accepted : executeOwned state selector arguments = .ok next)
      (later : Executes contracts next rest history after) :
      Executes contracts state (⟨contracts.custody, contracts.relay, data⟩ :: rest) history after
  | proposed {state after : State} {sender : Address} {selector : Selector}
      {arguments data : Bytes} {calls : List BatchOperation} {rest : List Message}
      {history : List Execution}
      (split : splitSelector data = .ok (selector, arguments))
      (named : selector = Abi.functionSelector Custody.proposeSignature)
      (held : proposedCalls contracts arguments = .ok calls)
      (later : Executes contracts state (contracts.messages calls ++ rest) history after) :
      Executes contracts state (⟨sender, contracts.custody, data⟩ :: rest) history after

namespace Executes

variable {contracts : Contracts} {state middle after : State} {messages rest : List Message}
  {history later : List Execution}

theorem append (first : Executes contracts state messages history middle)
    (second : Executes contracts middle rest later after) :
    Executes contracts state (messages ++ rest) (history ++ later) after := by
  induction first with
  | done state => exact second
  | relayed spelled known accepted _ ih => exact .relayed spelled known accepted (ih second)
  | owned split accepted _ ih => exact .owned split accepted (ih second)
  | proposed split named held _ ih =>
    have whole := ih second
    rw [List.append_assoc] at whole
    exact .proposed split named held whole

/-- The log grows by one entry for each relay call, in order. -/
theorem executed_eq (run : Executes contracts state messages history after) :
    after.executed = state.executed ++ history.map Execution.entry := by
  induction run with
  | done state => simp
  | @relayed state next after sender data call operation rest history spelled known accepted _ ih =>
    obtain ⟨other, _, _, found, _, _, _, changed⟩ := executeRelay_eq_ok accepted
    have same : other = operation := by
      rw [known] at found
      exact (Option.some.inj found).symm
    subst same
    rw [ih, changed]
    simp [State.relayed, Execution.entry, Execution.sender]
  | owned split accepted _ ih =>
    obtain ⟨_, _, rfl⟩ := executeOwned_eq_ok accepted
    exact ih
  | proposed split named held _ ih => exact ih

/-- An execution neither makes blocks nor settles transactions, nor does it poison the lock. -/
theorem keeps_blocks (run : Executes contracts state messages history after) :
    after.block = state.block ∧ after.receipts = state.receipts
      ∧ after.poisoned = state.poisoned := by
  induction run with
  | done state => exact ⟨rfl, rfl, rfl⟩
  | relayed spelled known accepted _ ih =>
    obtain ⟨_, _, _, _, _, _, _, rfl⟩ := executeRelay_eq_ok accepted
    exact ih
  | owned split accepted _ ih =>
    obtain ⟨_, _, rfl⟩ := executeOwned_eq_ok accepted
    exact ih
  | proposed split named held _ ih => exact ih

end Executes

theorem executes_of_executeBatch {contracts : Contracts} {nested : Nested} {state after : State}
    {calls : List BatchOperation}
    (single : ∀ {state sender target data next}, nested state sender target data = .ok next →
      ∃ history, Executes contracts state [⟨sender, target, data⟩] history next)
    (accepted : executeBatch contracts nested state calls = .ok after) :
    ∃ history, Executes contracts state (contracts.messages calls) history after := by
  induction calls generalizing state with
  | nil =>
    cases accepted
    exact ⟨[], .done _⟩
  | cons call rest ih =>
    unfold executeBatch at accepted
    rw [List.foldlM_cons] at accepted
    obtain ⟨next, first, others⟩ := bind_eq_ok.1 accepted
    obtain ⟨history, performed⟩ := single first
    obtain ⟨later, performedLater⟩ := ih others
    exact ⟨history ++ later, performed.append performedLater⟩

theorem executes_of_executeWithin {contracts : Contracts} {limit : Nat} {state after : State}
    {sender target : Address} {data : Bytes}
    (accepted : executeWithin contracts limit state sender target data = .ok after) :
    ∃ history, Executes contracts state [⟨sender, target, data⟩] history after := by
  -- A proposal nests one level deeper, where the hypothesis covers each of its calls.
  induction limit generalizing state sender target data after with
  | zero => cases accepted
  | succ limit ih =>
    unfold executeWithin at accepted
    obtain ⟨⟨selector, arguments⟩, split, result⟩ := bind_eq_ok.1 accepted
    rw [reverting_eq_ok] at split
    dsimp only at result
    by_cases proposal :
        target = contracts.custody ∧ selector = Abi.functionSelector Custody.proposeSignature
    · rw [if_pos proposal] at result
      obtain ⟨calls, held, batch⟩ := bind_eq_ok.1 result
      rw [reverting_eq_ok] at held
      obtain ⟨history, performed⟩ := executes_of_executeBatch ih batch
      rw [proposal.1]
      exact ⟨history, .proposed split proposal.2 held (by simpa using performed)⟩
    · rw [if_neg proposal] at result
      by_cases atRelay : target = contracts.relay
      · rw [if_neg (not_not.2 atRelay)] at result
        rw [atRelay]
        cases spelled : RelayCall.decode data with
        | ok call =>
          rw [spelled] at result
          dsimp only at result
          rw [reverting_eq_ok] at result
          obtain ⟨operation, _, _, known, _⟩ := executeRelay_eq_ok result
          exact ⟨_, .relayed spelled known result (.done after)⟩
        | error error =>
          rw [spelled] at result
          by_cases byCustody : sender = contracts.custody
          · rw [byCustody] at result ⊢
            exact ⟨[], .owned split (by simpa using result) (.done after)⟩
          · simp [byCustody] at result
      · rw [if_pos atRelay] at result
        cases result

/-- An execution that succeeds is a sequence of relay calls and calls of the relay's owner. -/
theorem executes_of_execute {contracts : Contracts} {state after : State}
    {sender target : Address} {data : Bytes}
    (accepted : execute contracts state sender target data = .ok after) :
    ∃ history, Executes contracts state [⟨sender, target, data⟩] history after :=
  executes_of_executeWithin accepted

theorem poisoned_of_execute {contracts : Contracts} {state after : State}
    {sender target : Address} {data : Bytes}
    (accepted : execute contracts state sender target data = .ok after) :
    after.poisoned = state.poisoned := by
  obtain ⟨history, made⟩ := executes_of_execute accepted
  exact made.keeps_blocks.2.2

end GaslessRelay.Chain
