import GaslessRelay.Client.Script
import GaslessRelay.Proofs.ClientTraces
import GaslessRelay.Proofs.PathVerdicts
import GaslessRelay.Proofs.ValidRelays

/-!
Failures that the arguments of an operation decide alone, and what the ledger is asked before them.
Dispatch and submission ask nothing. A relay is refused for its signers, its operation or its
payload before it asks anything, and for its path after the counter of the sender was read
(`RelayContext.local_failures_come_first_but_relayed_path`).
-/

namespace GaslessRelay

open Outcome

namespace RelayError

/-- The failure is one of the path, the signers, the operation or the payload. -/
def isLocal : RelayError → Bool
  | invalidPath _ | noSigners | unknownOperation _ | invalidPayload _ => true
  | _ => false

theorem isLocal_ofRevert (reason : String) : (ofRevert reason).isLocal = false := by
  unfold ofRevert
  split <;> rfl

end RelayError

theorem Receipt.isLocal_of_result {receipt : Receipt} {error : RelayError}
    (refused : receipt.result = .error error) : error.isLocal = false := by
  unfold result at refused
  split_ifs at refused
  rw [← Except.error.inj refused]
  exact RelayError.isLocal_ofRevert _

/-- The ledger itself replied with an error. -/
def Told (log : List Exchange) (error : RelayError) : Prop :=
  ∃ exchange ∈ log, exchange.reply = .error error

/-- A local failure is only passed on from the ledger. -/
def Forwarded {α : Type} (log : List Exchange) (result : Except RelayError α) : Prop :=
  ∀ error, result = .error error → error.isLocal = true → Told log error

section

variable {α β : Type} {log later : List Exchange} {error : RelayError}

theorem Told.append_left (told : Told log error) : Told (log ++ later) error := by
  obtain ⟨exchange, member, failed⟩ := told
  exact ⟨exchange, List.mem_append_left later member, failed⟩

theorem Told.append_right (told : Told later error) : Told (log ++ later) error := by
  obtain ⟨exchange, member, failed⟩ := told
  exact ⟨exchange, List.mem_append_right log member, failed⟩

theorem Forwarded.of_foreign (foreign : error.isLocal = false) :
    Forwarded log (.error error : Except RelayError α) := by
  intro other same isLocal
  rw [Except.error.inj same, isLocal] at foreign
  cases foreign

theorem Forwarded.of_ok (value : α) : Forwarded log (.ok value) :=
  fun _ failed => by cases failed

theorem Forwarded.of_error (forwarded : Forwarded log (.error error : Except RelayError α)) :
    Forwarded log (.error error : Except RelayError β) :=
  fun other same => forwarded other (congrArg Except.error (Except.error.inj same))

theorem Forwarded.append {result : Except RelayError α} (forwarded : Forwarded later result) :
    Forwarded (log ++ later) result :=
  fun error failed isLocal => (forwarded error failed isLocal).append_right

end

namespace ClientM

variable {α β : Type}

/-- The program itself has no local failures. -/
def Forwards (program : ClientM α) : Prop := program.Ensures Forwarded

theorem forwards_pure (value : α) : (pure value : ClientM α).Forwards :=
  ensures_pure (.of_ok value)

theorem forwards_fail {error : RelayError} (foreign : error.isLocal = false) :
    (known (.error error) : ClientM α).Forwards :=
  ensures_known (.of_foreign foreign)

theorem Forwards.bind {program : ClientM α} {next : α → ClientM β} (first : program.Forwards)
    (second : ∀ value, (next value).Forwards) : (program >>= next).Forwards := by
  refine Ensures.bind first (fun log value _ => ?_) (fun log error forwarded => ?_)
  · exact (second value).weaken fun later result forwarded => forwarded.append
  · exact forwarded.of_error

theorem forwards_known_bind {result : Except RelayError α} {next : α → ClientM β}
    (foreign : ∀ error, result = .error error → error.isLocal = false)
    (continued : ∀ value, result = .ok value → (next value).Forwards) :
    (known result >>= next).Forwards :=
  ensures_known_bind continued fun error failed => .of_foreign (foreign error failed)

theorem forwards_query (request : LedgerRequest) : (query request).Forwards := by
  apply ensures_query
  intro reply error failed _
  exact ⟨⟨request, reply⟩, List.mem_singleton_self _, failed⟩

theorem forwards_poll (request : LedgerRequest) (enough : request.Answer → Bool) :
    (poll request enough).Forwards := by
  refine (ensures_poll request enough).weaken fun log result last error failed _ => ?_
  exact ⟨⟨request, result⟩, last, failed⟩

/-- An attempt does not fail. -/
theorem forwards_attempt (program : ClientM α) : (attempt program).Forwards :=
  Ensures.attempt fun _ result _ => .of_ok result

/-- A program that a decision refuses before anything else has no other local failures, if it has
none after the decision. -/
theorem told_or_decided {program : ClientM α} {decision : Except RelayError β}
    (refused : ∀ refusal, decision = .error refusal → program = known (.error refusal))
    (forwards : ∀ value, decision = .ok value → program.Forwards) {σ : Type} {ledger : Ledger σ}
    {state : σ} {log : List Exchange} {error : RelayError} (isLocal : error.isLocal = true)
    (logged : program.Logs ledger state log (.error error)) :
    Told log error ∨ decision = .error error ∧ log = [] := by
  cases decision with
  | ok value => exact .inl ((forwards value rfl).of_logs logged error rfl isLocal)
  | error refusal =>
    rw [refused refusal rfl] at logged
    obtain ⟨unasked, same⟩ := eq_of_logs_known logged
    exact .inr ⟨congrArg Except.error (Except.error.inj same), unasked⟩

end ClientM

namespace Settlement

theorem forwards_waitForReceipt (transaction : Hash) (confirmations : UInt64) :
    (waitForReceipt transaction confirmations).Forwards := by
  unfold waitForReceipt
  apply (ClientM.forwards_poll _ _).bind
  intro answer
  cases answer with
  | none => exact ClientM.forwards_fail rfl
  | some receipt =>
    dsimp only
    split
    · apply (ClientM.forwards_poll _ _).bind
      intro head
      exact ClientM.forwards_pure receipt
    · exact ClientM.forwards_pure receipt

theorem forwards_replayReason (target : Address) (data : Bytes) :
    (replayReason target data).Forwards := by
  unfold replayReason
  apply (ClientM.forwards_attempt _).bind
  intro outcome
  cases outcome with
  | ok answer => exact ClientM.forwards_pure _
  | error error =>
    dsimp only
    split <;> exact ClientM.forwards_pure _

theorem forwards_submitAndConfirm (target : Address) (data : Bytes) (confirmations : UInt64) :
    (submitAndConfirm target data confirmations).Forwards := by
  unfold submitAndConfirm
  apply (ClientM.forwards_query _).bind
  intro transaction
  apply (forwards_waitForReceipt transaction confirmations).bind
  intro receipt
  split
  · exact ClientM.forwards_pure receipt
  · split
    · exact ClientM.forwards_pure receipt
    · apply (forwards_replayReason target data).bind
      intro reason
      exact ClientM.forwards_pure _

end Settlement

namespace RelayContext

variable {context : RelayContext} {key : String} {sender : Address}
  {payload : List (String × Json)} {policy : AccountPolicy} {signers : List Signer}
  {request : Request} {set : SignatureSet} {error : RelayError}

/-- The relay call of a request, or why there is none. -/
def relayCall (context : RelayContext) (request : Request) (policy : AccountPolicy)
    (set : SignatureSet) : Except RelayError Bytes := do
  (← context.encode request).relayCalldata policy set

theorem dispatch_eq : context.dispatch request policy set = (do
    let calldata ← ClientM.known (context.relayCall request policy set)
    ClientM.bump .relaysSubmitted
    let receipt ← Settlement.submitAndConfirm context.config.relayAddress calldata
      context.config.effectiveConfirmations
    if receipt.success then
      ClientM.bump .relaysConfirmed
      return ⟨.confirmed, receipt⟩
    else
      ClientM.bump .relaysReverted
      return ⟨.reverted, receipt⟩) := by
  unfold dispatch relayCall
  cases context.encode request with
  | error error => rfl
  | ok encoded => rfl

theorem dispatch_of_refused (refused : context.relayCall request policy set = .error error) :
    context.dispatch request policy set = ClientM.known (.error error) := by
  rw [dispatch_eq, refused]
  rfl

theorem submit_of_refused (refused : context.relayCall request policy set = .error error) :
    context.submit request policy set = ClientM.known (.error error) := by
  unfold submit
  rw [dispatch_of_refused refused]
  rfl

theorem forwards_dispatch {calldata : Bytes}
    (spelled : context.relayCall request policy set = .ok calldata) :
    (context.dispatch request policy set).Forwards := by
  rw [dispatch_eq, spelled]
  apply ClientM.ensures_bump_bind
  apply (Settlement.forwards_submitAndConfirm _ _ _).bind
  intro receipt
  split
  · exact ClientM.ensures_bump_bind (ClientM.forwards_pure _)
  · exact ClientM.ensures_bump_bind (ClientM.forwards_pure _)

theorem forwards_submit {calldata : Bytes}
    (spelled : context.relayCall request policy set = .ok calldata) :
    (context.submit request policy set).Forwards := by
  unfold submit
  apply (forwards_dispatch spelled).bind
  intro outcome
  split
  · exact ClientM.forwards_pure _
  · rename_i error failed
    have foreign := Receipt.isLocal_of_result failed
    dsimp only
    split
    · exact ClientM.ensures_bump_bind (ClientM.forwards_fail foreign)
    · exact ClientM.forwards_fail foreign

/-- A payload that fits an operation, before the counter of its sender is known. -/
def draft (context : RelayContext) (key : String) (sender : Address)
    (payload : List (String × Json)) : Except RelayError Request := do
  let operation ← context.operation key
  let draft : Request := { operationKey := operation.key, sender, sequence := 0, payload }
  let _ ← (draft.bodyValues operation).mapError .invalidPayload
  return draft

/-- What the arguments of a relay decide alone: why it is refused, or the path that it takes. -/
def decided (context : RelayContext) (key : String) (sender : Address)
    (payload : List (String × Json)) (policy : AccountPolicy) (signers : List Signer) :
    Except RelayError RelayPath :=
  if signers.isEmpty then .error .noSigners
  else do
    let _ ← context.draft key sender payload
    (policy.selectPath (.unsigned signers)).mapError .ofAuth

/-- The question for the counter of a sender. -/
def counterRead (context : RelayContext) (sender : Address) : LedgerRequest :=
  .call context.config.relayAddress (Account.getNonceCalldata sender)

theorem assemble_eq : context.assemble key sender payload = (do
    let draft ← ClientM.known (context.draft key sender payload)
    return { draft with sequence := ← context.sequenceNumber sender }) := by
  unfold assemble draft
  cases context.operation key with
  | error error => rfl
  | ok operation =>
    rw [ClientM.known_ok_bind, ok_bind]
    dsimp only
    cases Request.bodyValues ⟨operation.key, sender, 0, payload⟩ operation with
    | error error => rfl
    | ok body => rfl

/-- A draft is refused for its operation or its payload. -/
theorem draft_eq_error (refused : context.draft key sender payload = .error error) :
    error.isResubmittable = false ∧ ∀ fault, error ≠ .invalidPath fault := by
  unfold draft operation at refused
  split at refused
  · rename_i operation known
    dsimp only [ok_bind] at refused
    cases body : Request.bodyValues ⟨operation.key, sender, 0, payload⟩ operation with
    | error other =>
      rw [body] at refused
      rw [← Except.error.inj refused]
      exact ⟨rfl, fun fault same => by cases same⟩
    | ok values =>
      rw [body] at refused
      cases refused
  · rw [← Except.error.inj refused]
    exact ⟨rfl, fun fault same => by cases same⟩

/-- A draft can be encoded with every counter. -/
theorem encode_of_draft {drafted : Request}
    (fits : context.draft key sender payload = .ok drafted) (sequence : UInt64) :
    ∃ encoded, context.encode { drafted with sequence } = .ok encoded := by
  obtain ⟨operation, known, fits⟩ := bind_eq_ok.1 fits
  obtain ⟨body, values, made⟩ := bind_eq_ok.1 fits
  cases made
  obtain ⟨-, rfl⟩ := operation_eq_ok known
  have fitsAny : Request.bodyValues ⟨operation.key, sender, sequence, payload⟩ operation
      = .ok body := mapError_eq_ok.1 values
  refine ⟨operation.encoded sender sequence body, ?_⟩
  unfold encode
  rw [known, ok_bind, Request.encode_of_bodyValues rfl fitsAny]
  rfl

/-- One question is asked for the counter. -/
theorem ensures_sequenceNumber : (context.sequenceNumber sender).Ensures fun log result =>
    (∃ reply, log = [⟨context.counterRead sender, reply⟩]) ∧ Forwarded log result := by
  unfold sequenceNumber
  have asked : (ClientM.query (context.counterRead sender)).Ensures fun log result =>
      (∃ reply, log = [⟨context.counterRead sender, reply⟩]) ∧ Forwarded log result :=
    ClientM.ensures_query fun reply =>
      ⟨⟨reply, rfl⟩, fun error failed _ => ⟨_, List.mem_singleton_self _, failed⟩⟩
  refine asked.bind (fun log answer reached => ?_) (fun log error reached => ?_)
  · have shape : ∃ reply, log ++ [] = [⟨context.counterRead sender, reply⟩] := by
      simpa using reached.1
    apply ClientM.ensures_known_bind
    · intro value _
      split
      · exact ClientM.ensures_pure ⟨shape, .of_ok _⟩
      · exact ClientM.ensures_known ⟨shape, .of_foreign rfl⟩
    · intro error failed
      obtain ⟨cause, -, rfl⟩ := mapError_eq_error.1 failed
      exact ⟨shape, .of_foreign rfl⟩
  · exact ⟨reached.1, reached.2.of_error⟩

theorem relayCall_of_accepted {encoded : EncodedRequest}
    (accepted : context.encode request = .ok encoded) :
    context.relayCall request policy set = encoded.relayCalldata policy set := by
  unfold relayCall
  rw [accepted, ok_bind]

/-- What the arguments refuse for the operation or the payload is refused before any question. -/
theorem signAndSubmit_of_refused (refused : context.draft key sender payload = .error error) :
    context.signAndSubmit key sender payload policy signers = ClientM.known (.error error) := by
  unfold signAndSubmit
  rw [assemble_eq, refused]
  rfl

theorem foreign_of_signRequest {encoded : EncodedRequest} {domain : Domain}
    (present : signers.isEmpty = false)
    (failed : (Account.signRequest encoded domain signers).mapError .ofAuth = .error error) :
    error.isLocal = false := by
  obtain ⟨cause, unsigned, rfl⟩ := mapError_eq_error.1 failed
  rw [Account.signRequest_eq_error present unsigned]
  rfl

/-- Assembly after the draft: one question, and a request that can be encoded. -/
theorem ensures_assemble {drafted : Request}
    (fits : context.draft key sender payload = .ok drafted) :
    (context.assemble key sender payload).Ensures fun log result =>
      (∃ reply, log = [⟨context.counterRead sender, reply⟩]) ∧ Forwarded log result ∧
        ∀ request, result = .ok request → ∃ encoded, context.encode request = .ok encoded := by
  rw [assemble_eq, fits, ClientM.known_ok_bind]
  refine ensures_sequenceNumber.bind (fun log sequence reached => ?_) (fun log error reached => ?_)
  · apply ClientM.ensures_pure
    rw [List.append_nil]
    refine ⟨reached.1, .of_ok _, fun request same => ?_⟩
    rw [← Except.ok.inj same]
    exact encode_of_draft fits sequence
  · exact ⟨reached.1, reached.2.of_error, fun request same => by cases same⟩

section

variable {drafted : Request} (present : signers.isEmpty = false)
  (fits : context.draft key sender payload = .ok drafted)

include present fits

/-- A path is refused after the question for the counter. -/
theorem ensures_signAndSubmit_of_path {fault : AuthError}
    (refused : policy.selectPath (.unsigned signers) = .error fault) :
    (context.signAndSubmit key sender payload policy signers).Ensures fun log result =>
      (∃ reply, log = [⟨context.counterRead sender, reply⟩]) ∧ ∃ error, result = .error error ∧
        (error.isLocal = true → error = .ofAuth fault ∨ Told log error) := by
  unfold signAndSubmit
  refine (ensures_assemble fits).bind (fun log request reached => ?_) (fun log error reached => ?_)
  · obtain ⟨asked, -, encodes⟩ := reached
    obtain ⟨encoded, accepted⟩ := encodes request rfl
    rw [← List.append_nil log] at asked
    rw [accepted, ClientM.known_ok_bind]
    apply ClientM.ensures_known_bind
    · intro set signed
      have verdict := @Account.selectPath_of_signRequest _ _ _ policy _ (mapError_eq_ok.1 signed)
      have uncalled : context.relayCall request policy set = .error (.ofAuth fault) := by
        rw [relayCall_of_accepted accepted]
        exact EncodedRequest.relayCalldata_of_refused (verdict.trans refused)
      rw [submit_of_refused uncalled]
      exact ClientM.ensures_known ⟨asked, _, rfl, fun _ => .inl rfl⟩
    · intro error failed
      refine ⟨asked, error, rfl, fun isLocal => ?_⟩
      rw [foreign_of_signRequest present failed] at isLocal
      cases isLocal
  · exact ⟨reached.1, error, rfl, fun isLocal => .inr (reached.2.1 error rfl isLocal)⟩

/-- After a path is found there are no local failures. -/
theorem forwards_signAndSubmit {path : RelayPath}
    (found : policy.selectPath (.unsigned signers) = .ok path) :
    (context.signAndSubmit key sender payload policy signers).Forwards := by
  unfold signAndSubmit
  refine (ensures_assemble fits).bind (fun log request reached => ?_) (fun log error reached => ?_)
  · obtain ⟨encoded, accepted⟩ := reached.2.2 request rfl
    rw [accepted, ClientM.known_ok_bind]
    refine ClientM.Ensures.weaken ?_ fun later result forwarded => Forwarded.append forwarded
    apply ClientM.forwards_known_bind
    · intro error failed
      exact foreign_of_signRequest present failed
    · intro set signed
      have verdict := @Account.selectPath_of_signRequest _ _ _ policy _ (mapError_eq_ok.1 signed)
      obtain ⟨calldata, spelled⟩ :=
        @EncodedRequest.relayCalldata_of_selected encoded _ _ _ (verdict.trans found)
      rw [← relayCall_of_accepted accepted] at spelled
      exact forwards_submit spelled
  · exact reached.2.1.of_error

end

theorem relay_eq (present : signers.isEmpty = false) :
    context.relay key sender payload policy signers = (do
      match ← ClientM.attempt (context.signAndSubmit key sender payload policy signers) with
      | .ok receipt => return receipt
      | .error error =>
        if error.isResubmittable then context.signAndSubmit key sender payload policy signers
        else ClientM.known (.error error)) := by
  unfold relay
  exact if_neg (by rw [present]; exact Bool.false_ne_true)

/-- Without signers, or if the draft is refused, nothing is asked. -/
theorem relay_of_refused
    (refused : signers.isEmpty = true ∧ error = .noSigners ∨
      signers.isEmpty = false ∧ context.draft key sender payload = .error error) :
    context.relay key sender payload policy signers = ClientM.known (.error error) := by
  rcases refused with ⟨none, rfl⟩ | ⟨present, refused⟩
  · unfold relay
    rw [if_pos none]
  · rw [relay_eq present, signAndSubmit_of_refused refused]
    have final := (draft_eq_error refused).1
    show (if error.isResubmittable = true then _ else _) = _
    rw [if_neg (by rw [final]; exact Bool.false_ne_true)]

section

variable {drafted : Request} (present : signers.isEmpty = false)
  (fits : context.draft key sender payload = .ok drafted)

include present fits

theorem forwards_relay {path : RelayPath}
    (found : policy.selectPath (.unsigned signers) = .ok path) :
    (context.relay key sender payload policy signers).Forwards := by
  have once := @forwards_signAndSubmit context key sender payload policy signers _ present
    fits _ found
  have tried : (ClientM.attempt (context.signAndSubmit key sender payload policy signers)).Ensures
      fun log result => ∃ outcome, result = .ok outcome ∧ Forwarded log outcome :=
    .attempt fun log outcome trace => ⟨outcome, rfl, once log outcome trace⟩
  rw [relay_eq present]
  refine tried.bind (fun log outcome reached => ?_) (fun log error reached => ?_)
  · obtain ⟨_, same, forwarded⟩ := reached
    cases same
    cases outcome with
    | ok receipt => exact ClientM.ensures_pure (.of_ok receipt)
    | error error =>
      dsimp only
      split
      · exact once.weaken fun later result forwarded => forwarded.append
      · apply ClientM.ensures_known
        rwa [List.append_nil]
  · obtain ⟨_, same, _⟩ := reached
    cases same

/-- A refused path is refused again after a fresh question for the counter. -/
theorem ensures_relay_of_path {fault : AuthError}
    (refused : policy.selectPath (.unsigned signers) = .error fault) :
    (context.relay key sender payload policy signers).Ensures fun log result =>
      (log ≠ [] ∧ ∀ exchange ∈ log, exchange.request = context.counterRead sender) ∧
        ∃ error, result = .error error ∧
          (error.isLocal = true → error = .ofAuth fault ∨ Told log error) := by
  have once := @ensures_signAndSubmit_of_path context key sender payload policy signers _ present
    fits _ refused
  have tried : (ClientM.attempt (context.signAndSubmit key sender payload policy signers)).Ensures
      fun log result => (∃ reply, log = [⟨context.counterRead sender, reply⟩]) ∧
        ∃ error, result = .ok (.error error) ∧
          (error.isLocal = true → error = .ofAuth fault ∨ Told log error) := by
    apply ClientM.Ensures.attempt
    intro log outcome trace
    obtain ⟨asked, error, rfl, early⟩ := once log outcome trace
    exact ⟨asked, error, rfl, early⟩
  rw [relay_eq present]
  refine tried.bind (fun log outcome reached => ?_) (fun log error reached => ?_)
  · obtain ⟨⟨reply, rfl⟩, error, same, early⟩ := reached
    cases same
    dsimp only
    split
    · refine once.weaken fun later result again => ?_
      obtain ⟨⟨reply', rfl⟩, last, rfl, early⟩ := again
      refine ⟨⟨List.cons_ne_nil _ _, ?_⟩, last, rfl, fun isLocal => ?_⟩
      · simp
      · exact (early isLocal).imp_right Told.append_right
    · apply ClientM.ensures_known
      rw [List.append_nil]
      exact ⟨⟨List.cons_ne_nil _ _, by simp⟩, error, rfl, early⟩
  · obtain ⟨-, _, same, -⟩ := reached
    cases same

end

/-- A relay has asked nothing exactly if its local failure is not one of the path, and nothing but
the counter of the sender otherwise. -/
theorem told_or_decided_relay {σ : Type} {ledger : Ledger σ} {state : σ} {log : List Exchange}
    (isLocal : error.isLocal = true)
    (logged : (context.relay key sender payload policy signers).Logs ledger state log
      (.error error)) :
    Told log error ∨ context.decided key sender payload policy signers = .error error ∧
      (log = [] ↔ ∀ fault, error ≠ .invalidPath fault) ∧
      ∀ exchange ∈ log, exchange.request = context.counterRead sender := by
  unfold decided
  cases present : signers.isEmpty with
  | true =>
    rw [relay_of_refused (.inl ⟨present, rfl⟩)] at logged
    obtain ⟨rfl, same⟩ := ClientM.eq_of_logs_known logged
    cases same
    exact .inr ⟨rfl, by simp, by simp⟩
  | false =>
    cases fits : context.draft key sender payload with
    | error refusal =>
      rw [relay_of_refused (.inr ⟨present, fits⟩)] at logged
      obtain ⟨rfl, same⟩ := ClientM.eq_of_logs_known logged
      cases same
      have unrelated := (draft_eq_error fits).2
      exact .inr ⟨rfl, by simpa using unrelated, by simp⟩
    | ok drafted =>
      cases verdict : policy.selectPath (.unsigned signers) with
      | error refusal =>
        obtain ⟨⟨asked, reads⟩, failure, same, early⟩ :=
          (ensures_relay_of_path present fits verdict).of_logs logged
        cases same
        obtain ⟨fault, rfl⟩ := AccountPolicy.invalidPath_of_unsigned present verdict
        refine (early isLocal).symm.imp_right fun same => ?_
        rw [same]
        exact ⟨rfl, by simpa [RelayError.ofAuth] using asked, reads⟩
      | ok path =>
        exact .inl ((forwards_relay present fits verdict).of_logs logged error rfl isLocal)

/-- A local failure is raised by the arguments alone, unless the ledger itself replied with it.
Dispatch and submission then ask the ledger nothing. A relay has asked nothing exactly if the
failure is not one of the path, and nothing but the counter of the sender otherwise. -/
theorem local_failures_come_first_but_relayed_path {σ : Type} {ledger : Ledger σ} {state : σ}
    {log : List Exchange} (isLocal : error.isLocal = true) :
    ((context.dispatch request policy set).Logs ledger state log (.error error) →
      Told log error ∨ context.relayCall request policy set = .error error ∧ log = []) ∧
    ((context.submit request policy set).Logs ledger state log (.error error) →
      Told log error ∨ context.relayCall request policy set = .error error ∧ log = []) ∧
    ((context.relay key sender payload policy signers).Logs ledger state log (.error error) →
      Told log error ∨ context.decided key sender payload policy signers = .error error ∧
        (log = [] ↔ ∀ fault, error ≠ .invalidPath fault) ∧
        ∀ exchange ∈ log, exchange.request = context.counterRead sender) := by
  refine ⟨?_, ?_, told_or_decided_relay isLocal⟩
  · exact ClientM.told_or_decided (fun _ => dispatch_of_refused)
      (fun _ => forwards_dispatch) isLocal
  · exact ClientM.told_or_decided (fun _ => submit_of_refused)
      (fun _ => forwards_submit) isLocal

/-- One of two needed signatures is refused at once. -/
theorem local_failures_come_first_but_relayed_path_few :
    let burn : OperationType :=
      ⟨"BurnToken", [.sender, .nonce, ⟨"tokenId", .uint 256⟩], 0,
        Abi.functionSelector "burnToken(uint256)"⟩
    let config : Config := { relayAddress := 1, custodyAddress := 2, multiSendAddress := 3 }
    let context : RelayContext := ⟨config, config.domain 1, ⟨[burn]⟩⟩
    let request : Request := ⟨"BurnToken", 7, 0, [("tokenId", .integer 5)]⟩
    let set : SignatureSet := ⟨[⟨9, []⟩]⟩
    let error : RelayError := .invalidPath (.tooFew 2 1)
    error.isLocal = true ∧
      (context.dispatch request (.threshold [8, 9] 2) set).Logs Script.ledger {} []
        (.error error) ∧
      context.relayCall request (.threshold [8, 9] 2) set = .error error := by
  intro burn config context request set error
  have logged : (context.dispatch request (.threshold [8, 9] 2) set).Logs Script.ledger {} []
      (.error error) := by
    rw [@dispatch_of_refused context (.threshold [8, 9] 2) request set error rfl]
    exact ⟨0, {}, {}, {}, rfl⟩
  obtain ⟨early, -⟩ := @local_failures_come_first_but_relayed_path context "BurnToken" 7 []
    (.threshold [8, 9] 2) [] request set error _ Script.ledger {} [] rfl
  rcases early logged with ⟨exchange, member, -⟩ | ⟨refused, -⟩
  · cases member
  · exact ⟨rfl, logged, refused⟩

/-- Two signers of an account with a single key: the path is refused after the counter was read. -/
theorem relayed_path_refused_after_read :
    let config : Config := { relayAddress := 1, custodyAddress := 2, multiSendAddress := 3 }
    let signer : Signer := ⟨⟨3, by decide⟩, 0x6813eb9362372eef6200f3b1dbc3f819671cba69⟩
    let script : Script := { call := [.ok (wordBytes 0)] }
    ∃ context log, ofConfig config 1 = .ok context ∧
      (context.relay "BurnToken" 7 [("tokenId", .integer 5)] .singleKey [signer, signer]).Logs
        Script.ledger script log (.error (.invalidPath (.notSingle 2))) ∧
      log.map (·.request) = [.call 1 (Account.getNonceCalldata 7)] ∧
      ∀ exchange ∈ log, exchange.reply.isOk = true := by
  intro config signer script
  have evaluated : (do
      let context ← (ofConfig config 1).toOption
      let (result, _, _, log) ← (context.relay "BurnToken" 7 [("tokenId", .integer 5)] .singleKey
        [signer, signer]).run.run Script.ledger.recorded 9 {} (script, [])
      return decide (result = .error (.invalidPath (.notSingle 2)) ∧
        log.map (·.request) = [.call 1 (Account.getNonceCalldata 7)] ∧
        ∀ exchange ∈ log, exchange.reply.isOk = true)) = some true := by
    decide +kernel
  obtain ⟨context, built, evaluated⟩ := Option.bind_eq_some_iff.1 evaluated
  obtain ⟨⟨result, metrics, after, log⟩, ran, verdict⟩ := Option.bind_eq_some_iff.1 evaluated
  obtain ⟨rfl, asked, answered⟩ := of_decide_eq_true (Option.some.inj verdict)
  exact ⟨context, log, toOption_eq_some.1 built, ⟨9, {}, metrics, after, ran⟩, asked, answered⟩

end RelayContext

end GaslessRelay
