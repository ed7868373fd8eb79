import GaslessRelay.Client.Relay
import GaslessRelay.Proofs.ClientContract
import GaslessRelay.Proofs.RelayTransactions

/-!
What the relaying client does on a chain that others change between any two of its questions. It is
only promised the receipt of its own last transaction. Main statement: it sends at most two
transactions, and they execute its operation once if it ends with a receipt, and not at all if it
fails (`RelayContext.keeps_relay`).
-/

namespace GaslessRelay

open Chain (Contracts Transaction)
open Outcome (bind_eq_ok map_eq_ok mapError_eq_ok)

/-- The transactions that a client sent are its memory. A transaction meets the chain in any state,
a receipt tells whether the last transaction succeeded, and a call is answered in any way. -/
def relayProtocol (contracts : Contracts) : Protocol (List Transaction) where
  permits sent request :=
    match request with
    | .send .. => sent.length < 2
    | .receipt hash => ∃ last, sent.getLast? = some last ∧ last.hash = hash
    | .call .. | .blockNumber | .chainId => True
  replies sent request reply after :=
    match request, reply with
    | .send target data, reply => ∃ chain,
      reply = .ok (Transaction.hash ⟨chain, target, data⟩) ∧ after = sent ++ [⟨chain, target, data⟩]
    | .receipt _, reply => ∃ last receipt, sent.getLast? = some last ∧ reply = .ok (some receipt)
      ∧ receipt.success = last.succeeds contracts ∧ after = sent
    | .blockNumber, reply => ∃ head, reply = .ok head ∧ after = sent
    | .call .., _ | .chainId, _ => after = sent

variable {contracts : Contracts} {sent : List Transaction} {fails : List Transaction → Prop}

theorem keeps_send {target : Address} {data : Bytes} (room : sent.length < 2) :
    (ClientM.query (.send target data)).Keeps (relayProtocol contracts)
      (fun after hash => ∃ last, last.target = target ∧ last.data = data ∧ last.hash = hash
        ∧ after = sent ++ [last])
      fails sent := by
  apply ClientM.keeps_query room
  · rintro hash after ⟨chain, answered, same⟩
    exact ⟨⟨chain, target, data⟩, rfl, rfl, (Except.ok.inj answered).symm, same⟩
  · rintro error after ⟨chain, answered, _⟩
    cases answered

theorem keeps_receipt {last : Transaction} (isLast : sent.getLast? = some last) :
    (ClientM.poll (.receipt last.hash) Option.isSome).Keeps (relayProtocol contracts)
      (fun after answer => after = sent
        ∧ ∃ receipt, answer = some receipt ∧ receipt.success = last.succeeds contracts)
      fails sent := by
  have permitted : (relayProtocol contracts).permits sent (.receipt last.hash) :=
    ⟨last, isLast, rfl⟩
  apply ClientM.keeps_poll permitted
  · rintro answer after ⟨_, _, _, _, _, same⟩ _
    exact same
  · rintro answer after ⟨other, receipt, isOther, answered, success, same⟩ _
    have equal : other = last := Option.some.inj (isOther.symm.trans isLast)
    rw [equal] at success
    exact ⟨same, receipt, Except.ok.inj answered, success⟩
  · rintro error after ⟨_, _, _, answered, _⟩
    cases answered

theorem keeps_blockNumber {enough : UInt64 → Bool} :
    (ClientM.poll .blockNumber enough).Keeps (relayProtocol contracts)
      (fun after _ => after = sent) fails sent := by
  apply ClientM.keeps_poll trivial
  · rintro head after ⟨_, _, same⟩ _
    exact same
  · rintro head after ⟨_, _, same⟩ _
    exact same
  · rintro error after ⟨_, answered, _⟩
    cases answered

theorem keeps_call {target : Address} {data : Bytes} (refused : fails sent) :
    (ClientM.query (.call target data)).Keeps (relayProtocol contracts)
      (fun after _ => after = sent) fails sent := by
  apply ClientM.keeps_query trivial
  · intro answer after same
    exact same
  · rintro error after rfl
    exact refused

namespace Settlement

/-- The receipt tells whether the last transaction succeeded; waiting does not fail. -/
theorem keeps_waitForReceipt {last : Transaction} (isLast : sent.getLast? = some last)
    (confirmations : UInt64) :
    (waitForReceipt last.hash confirmations).Keeps (relayProtocol contracts)
      (fun after receipt => after = sent ∧ receipt.success = last.succeeds contracts)
      fails sent := by
  unfold waitForReceipt
  apply (keeps_receipt isLast).bind
  rintro after answer ⟨rfl, receipt, rfl, success⟩
  dsimp only
  by_cases deep : 1 < confirmations
  · rw [if_pos deep]
    apply keeps_blockNumber.bind
    rintro later head rfl
    exact ClientM.keeps_pure ⟨rfl, success⟩
  · rw [if_neg deep]
    exact ClientM.keeps_pure ⟨rfl, success⟩

theorem keeps_replayReason (target : Address) (data : Bytes) :
    (replayReason target data).Keeps (relayProtocol contracts)
      (fun after _ => after = sent) fails sent := by
  unfold replayReason
  have called := @keeps_call contracts sent (· = sent) target data rfl
  apply called.attempt.bind
  intro after outcome same
  cases outcome with
  | ok answer => exact ClientM.keeps_pure same
  | error error =>
    cases reason : error.revertReason? with
    | some text =>
      simp only [reason]
      exact ClientM.keeps_pure same
    | none =>
      simp only [reason]
      exact ClientM.keeps_pure same

/-- One transaction is sent, and its receipt comes back. -/
theorem keeps_submitAndConfirm {target : Address} {data : Bytes} (room : sent.length < 2)
    (confirmations : UInt64) :
    (submitAndConfirm target data confirmations).Keeps (relayProtocol contracts)
      (fun after receipt => ∃ last, last.data = data ∧ after = sent ++ [last]
        ∧ receipt.success = last.succeeds contracts)
      fails sent := by
  unfold submitAndConfirm
  apply (keeps_send room).bind
  rintro after hash ⟨last, _, sameData, rfl, rfl⟩
  have isLast : (sent ++ [last]).getLast? = some last := by simp
  apply (keeps_waitForReceipt isLast confirmations).bind
  rintro after receipt ⟨rfl, success⟩
  by_cases succeeded : receipt.success = true
  · rw [if_pos succeeded]
    exact ClientM.keeps_pure ⟨last, sameData, rfl, success⟩
  · rw [if_neg succeeded]
    cases reason : receipt.revertReason with
    | some text => exact ClientM.keeps_pure ⟨last, sameData, rfl, success⟩
    | none =>
      dsimp only
      apply (keeps_replayReason target data).bind
      rintro after text rfl
      exact ClientM.keeps_pure ⟨last, sameData, rfl, success⟩

end Settlement

theorem Receipt.result_eq_ok {receipt value : Receipt} (accepted : receipt.result = .ok value) :
    receipt.success = true := by
  unfold Receipt.result at accepted
  split_ifs at accepted with succeeded
  exact succeeded

theorem Receipt.result_eq_error {receipt : Receipt} {error : RelayError}
    (refused : receipt.result = .error error) : receipt.success = false := by
  unfold Receipt.result at refused
  split_ifs at refused with succeeded
  simpa using succeeded

namespace RelayContext

variable {context : RelayContext} {key : String} {sender : Address}

/-- Some entries of the log are one execution of an operation for a sender. The chain logs the key
under which its own catalog has the operation's type hash. -/
def Logs (context : RelayContext) (contracts : Contracts) (key : String) (sender : Address)
    (entries : List (String × Address)) : Prop :=
  ∃ own operation, context.operation key = .ok own
    ∧ contracts.catalog.byTypeHash? own.typeHash = some operation
    ∧ entries = [(operation.key, sender)]

theorem catalog_of_ofConfig {config : Config} {chainId : UInt64}
    (built : RelayContext.ofConfig config chainId = .ok context) :
    Catalog.builtin config.modules = .ok context.catalog := by
  unfold RelayContext.ofConfig at built
  split at built
  · rename_i catalog known
    cases built
    exact known
  · cases built

theorem operation_eq_ok {operation : OperationType}
    (known : context.operation key = .ok operation) :
    operation ∈ context.catalog.entries ∧ operation.key = key := by
  unfold RelayContext.operation at known
  split at known
  · rename_i found
    cases known
    exact ⟨List.mem_of_find?_eq_some found, by simpa using List.find?_some found⟩
  · cases known

/-- What a request that was assembled for an operation is encoded to. -/
theorem encode_header {request : Request} {encoded : EncodedRequest}
    (accepted : context.encode request = .ok encoded) :
    ∃ own, context.operation request.operationKey = .ok own ∧ encoded.typeHash = own.typeHash
      ∧ encoded.sender = request.sender := by
  obtain ⟨own, known, accepted⟩ := bind_eq_ok.1 accepted
  obtain ⟨-, body, -, rfl⟩ := Request.encode_eq_ok (mapError_eq_ok.1 accepted)
  exact ⟨own, known, rfl, rfl⟩

theorem keeps_sequenceNumber (refused : fails sent) :
    (context.sequenceNumber sender).Keeps (relayProtocol contracts)
      (fun after _ => after = sent) fails sent := by
  unfold sequenceNumber
  apply (keeps_call refused).bind
  rintro after answer rfl
  apply ClientM.keeps_known_bind refused
  intro value _
  by_cases fits : value.toNat < UInt64.size
  · rw [if_pos fits]
    exact ClientM.keeps_pure rfl
  · rw [if_neg fits]
    exact ClientM.keeps_fail refused

theorem keeps_assemble {payload : List (String × Json)} (refused : fails sent) :
    (context.assemble key sender payload).Keeps (relayProtocol contracts)
      (fun after request => after = sent ∧ request.operationKey = key ∧ request.sender = sender)
      fails sent := by
  unfold assemble
  apply ClientM.keeps_known_bind refused
  intro operation known
  obtain ⟨-, rfl⟩ := operation_eq_ok known
  apply ClientM.keeps_known_bind refused
  intro _ _
  apply (keeps_sequenceNumber refused).bind
  rintro after sequence rfl
  exact ClientM.keeps_pure ⟨rfl, rfl, rfl⟩

/-- Failures come before the transaction; the outcome tells whether it succeeded. -/
theorem keeps_dispatch {request : Request} {policy : AccountPolicy} {set : SignatureSet}
    (room : sent.length < 2) (refused : fails sent) :
    (context.dispatch request policy set).Keeps (relayProtocol contracts)
      (fun after outcome => ∃ encoded last, context.encode request = .ok encoded
        ∧ encoded.relayCalldata policy set = .ok last.data ∧ after = sent ++ [last]
        ∧ outcome.receipt.success = last.succeeds contracts)
      fails sent := by
  unfold dispatch
  apply ClientM.keeps_known_bind refused
  intro encoded accepted
  apply ClientM.keeps_known_bind refused
  intro data spelled
  apply ClientM.keeps_bump_bind
  apply (Settlement.keeps_submitAndConfirm room _).bind
  rintro after receipt ⟨last, rfl, rfl, success⟩
  by_cases succeeded : receipt.success = true
  · rw [if_pos succeeded]
    apply ClientM.keeps_bump_bind
    exact ClientM.keeps_pure ⟨encoded, last, accepted, spelled, rfl, success⟩
  · rw [if_neg succeeded]
    apply ClientM.keeps_bump_bind
    exact ClientM.keeps_pure ⟨encoded, last, accepted, spelled, rfl, success⟩

/-- A submission that fails left no transaction, or one that did not succeed. -/
theorem keeps_submit {request : Request} {policy : AccountPolicy} {set : SignatureSet}
    (room : sent.length < 2) (refused : fails sent)
    (reverted : ∀ last, last.succeeds contracts = false → fails (sent ++ [last])) :
    (context.submit request policy set).Keeps (relayProtocol contracts)
      (fun after _ => ∃ encoded last, context.encode request = .ok encoded
        ∧ encoded.relayCalldata policy set = .ok last.data ∧ after = sent ++ [last]
        ∧ last.succeeds contracts = true)
      fails sent := by
  unfold submit
  apply (keeps_dispatch room refused).bind
  rintro after outcome ⟨encoded, last, accepted, spelled, rfl, success⟩
  cases result : outcome.receipt.result with
  | ok receipt =>
    rw [Receipt.result_eq_ok result] at success
    exact ClientM.keeps_pure ⟨encoded, last, accepted, spelled, rfl, success.symm⟩
  | error error =>
    rw [Receipt.result_eq_error result] at success
    have failed := reverted last success.symm
    by_cases mismatch : error.isResubmittable = true
    · simp only [mismatch, if_true]
      exact ClientM.keeps_bump_bind (ClientM.keeps_fail failed)
    · simp only [mismatch]
      exact ClientM.keeps_fail failed

/-- An attempt executes its operation with its one transaction, or fails and executes nothing. -/
theorem keeps_signAndSubmit {payload : List (String × Json)} {policy : AccountPolicy}
    {signers : List Signer} (room : sent.length < 2) (refused : fails sent)
    (reverted : ∀ last, last.entries contracts = [] → fails (sent ++ [last])) :
    (context.signAndSubmit key sender payload policy signers).Keeps (relayProtocol contracts)
      (fun after _ => ∃ last, after = sent ++ [last]
        ∧ context.Logs contracts key sender (last.entries contracts))
      fails sent := by
  unfold signAndSubmit
  apply (keeps_assemble refused).bind
  rintro after request ⟨rfl, rfl, rfl⟩
  apply ClientM.keeps_known_bind refused
  intro signed _
  apply ClientM.keeps_known_bind refused
  intro set _
  have submitted := @keeps_submit contracts after fails context request policy set room refused
    (fun last failed => reverted last (Transaction.entries_of_not_succeeds failed))
  apply submitted.weaken
  · rintro later receipt ⟨encoded, last, accepted, spelled, rfl, succeeded⟩
    obtain ⟨own, known, typeHash, sameSender⟩ := encode_header accepted
    obtain ⟨operation, found, entries⟩ := Transaction.entries_of_relayCalldata spelled succeeded
    exact ⟨last, rfl, own, operation, known, typeHash ▸ found, sameSender ▸ entries⟩
  · intro later failed
    exact failed

/-- Relaying executes the operation once or fails and executes nothing. A second attempt is made
only after a first one that failed. -/
theorem keeps_relay {payload : List (String × Json)} {policy : AccountPolicy}
    {signers : List Signer} :
    (context.relay key sender payload policy signers).Keeps (relayProtocol contracts)
      (fun after _ => context.Logs contracts key sender (after.flatMap (·.entries contracts)))
      (fun after => after.flatMap (·.entries contracts) = []) [] := by
  unfold relay
  by_cases unsigned : signers.isEmpty = true
  · rw [if_pos unsigned]
    exact ClientM.keeps_fail rfl
  · rw [if_neg unsigned]
    have first := @keeps_signAndSubmit contracts []
      (fun after => after.length < 2 ∧ after.flatMap (·.entries contracts) = []) context key sender
      payload policy signers (by simp) ⟨by simp, rfl⟩
      (fun last failed => ⟨by simp, by simp [failed]⟩)
    apply first.attempt.bind
    intro after result outcome
    cases result with
    | ok receipt =>
      obtain ⟨last, rfl, logs⟩ := outcome
      exact ClientM.keeps_pure (by simpa using logs)
    | error error =>
      -- The first attempt left room for one more transaction and nothing in the log.
      obtain ⟨room, nothing⟩ := outcome
      by_cases mismatch : error.isResubmittable = true
      · simp only [mismatch, if_true]
        have second := @keeps_signAndSubmit contracts after
          (fun later => later.flatMap (·.entries contracts) = []) context key sender payload policy
          signers room nothing (fun last failed => by simp [nothing, failed])
        apply second.weaken
        · rintro later receipt ⟨last, rfl, logs⟩
          simpa [nothing] using logs
        · intro later failed
          exact failed
      · simp only [mismatch]
        exact ClientM.keeps_fail nothing

end RelayContext

end GaslessRelay
