import GaslessRelay.Proofs.ConfirmationWait
import GaslessRelay.Proofs.LocalFailures

/-!
What the counters say of submitted relays. Waiting for a transaction counts nothing, so each
submission adds one of four rows of counters, by how it ended (`Relayed.exists_row`), and a run adds
the rows of its submissions. Main statement: the counters tell the endings, but a revert that the
ledger gives for an answer, and not in a receipt, is counted as no revert
(`RelayContext.Relays.relays_counted_but_refused_reverts`).
-/

namespace GaslessRelay

open Outcome

variable {σ α β : Type} {ledger : Ledger σ}

namespace Metrics

/-- The metrics after some events. -/
def bumpAll (metrics : Metrics) (counters : List Counter) : Metrics := counters.foldl bump metrics

theorem get_bumpAll (metrics : Metrics) (counters : List Counter) (counter : Counter) :
    (metrics.bumpAll counters).get counter
      = metrics.get counter + UInt64.ofNat (counters.count counter) := by
  induction counters generalizing metrics with
  | nil => exact (UInt64.add_zero _).symm
  | cons first rest ih =>
    have later := ih (metrics.bump first)
    rw [get_bump] at later
    rw [List.count_cons]
    refine later.trans ?_
    by_cases same : counter = first
    · simp only [same, if_true, beq_self_eq_true, UInt64.ofNat_add, UInt64.add_assoc]
      rw [UInt64.add_comm 1]
      rfl
    · have other : (first == counter) = false := by simpa using Ne.symm same
      simp [same, other]

end Metrics

namespace Client

/-- The program counts nothing. -/
def Silent : Client α → Prop
  | done _ => True
  | count _ _ => False
  | ask _ _ next => ∀ reply, (next reply).Silent

theorem Silent.bind {program : Client α} {next : α → Client β} (first : program.Silent)
    (second : ∀ result, (next result).Silent) : (program.bind next).Silent := by
  induction program with
  | done result => exact second result
  | count counter rest ih => exact first.elim
  | ask request again rest ih => exact fun reply => ih reply (first reply)

theorem Silent.resume {request : LedgerRequest} {again : request.Reply → Bool}
    {next : request.Reply → Client α} (silent : (ask request again next).Silent)
    (reply : request.Reply) : (resume again next reply).Silent := by
  unfold Client.resume
  split
  · exact silent
  · exact silent reply

theorem Silent.metrics_of_run {program : Client α} (silent : program.Silent) {limit : Nat}
    {metrics metrics' : Metrics} {state after : σ} {result : α}
    (ran : program.run ledger limit metrics state = some (result, metrics', after)) :
    metrics' = metrics := by
  induction limit generalizing program state with
  | zero =>
    cases program with
    | done result =>
      cases ran
      rfl
    | count counter rest => cases ran
    | ask request again next => cases ran
  | succ limit ih =>
    cases program with
    | done result =>
      cases ran
      rfl
    | count counter rest => exact silent.elim
    | ask request again next =>
      obtain ⟨fewer, reply, middle, same, -, continued⟩ := run_ask_eq_some ran
      cases same
      exact ih (silent.resume reply) continued

end Client

namespace ClientM

/-- The program counts nothing. -/
def Silent (program : ClientM α) : Prop := program.run.Silent

theorem silent_known (result : Except RelayError α) : (known result).Silent := trivial

theorem Silent.bind {program : ClientM α} {next : α → ClientM β} (first : program.Silent)
    (second : ∀ value, (next value).Silent) : (program >>= next).Silent := by
  apply Client.Silent.bind first
  intro result
  cases result with
  | ok value => exact second value
  | error error => trivial

theorem silent_query (request : LedgerRequest) : (query request).Silent := fun _ => trivial

theorem silent_poll (request : LedgerRequest) (enough : request.Answer → Bool) :
    (poll request enough).Silent := fun _ => trivial

theorem Silent.attempt {program : ClientM α} (inner : program.Silent) : (attempt program).Silent :=
  Client.Silent.bind inner fun _ => trivial

end ClientM

/-- The failure that the ledger gave for an answer which a submission needs. A replay of the call
only looks for a reason. -/
def Exchange.refusal? (exchange : Exchange) : Option RelayError :=
  match exchange.request with
  | .call .. => none
  | _ =>
    match exchange.reply with
    | .ok _ => none
    | .error error => some error

/-- A failure is a refused answer, and before a result no answer was refused. -/
def Refuses (log : List Exchange) : Except RelayError α → Prop
  | .ok _ => ∀ exchange ∈ log, exchange.refusal? = none
  | .error error => ∃ exchange ∈ log, exchange.refusal? = some error

namespace ClientM

theorem refuses_bind {program : ClientM α} {next : α → ClientM β}
    (first : program.Ensures Refuses) (second : ∀ value, (next value).Ensures Refuses) :
    (program >>= next).Ensures Refuses := by
  refine first.bind (fun log value none => ?_) (fun log error refused => refused)
  refine (second value).weaken fun later result reached => ?_
  cases result with
  | ok value => exact List.forall_mem_append.2 ⟨none, reached⟩
  | error error =>
    obtain ⟨exchange, listed, refused⟩ := reached
    exact ⟨exchange, List.mem_append_right log listed, refused⟩

theorem refuses_pure (value : α) : (pure value : ClientM α).Ensures Refuses :=
  ensures_pure (List.forall_mem_nil _)

end ClientM

namespace Settlement

theorem refuses_send (target : Address) (data : Bytes) :
    (ClientM.query (.send target data)).Ensures Refuses := by
  apply ClientM.ensures_query
  intro reply
  cases reply with
  | ok answer => exact List.forall_mem_singleton.2 rfl
  | error error => exact ⟨_, List.mem_singleton_self _, rfl⟩

theorem refusal?_pending {transaction : Hash} {times : Nat} :
    ∀ exchange ∈ pending transaction times, exchange.refusal? = none := by
  intro exchange listed
  rw [List.eq_of_mem_replicate listed]
  rfl

theorem refusal?_headReads {heads : List UInt64} :
    ∀ exchange ∈ headReads heads, exchange.refusal? = none := by
  intro exchange listed
  obtain ⟨head, -, rfl⟩ := List.mem_map.1 listed
  rfl

theorem refuses_waitForReceipt (transaction : Hash) (confirmations : UInt64) :
    (waitForReceipt transaction confirmations).Ensures Refuses := by
  intro log result trace
  cases traces_waitForReceipt_iff.1 trace with
  | unanswered times error =>
    exact ⟨⟨.receipt transaction, .error error⟩, by simp, rfl⟩
  | answered times receipt deepens =>
    cases deepens with
    | included inclusion =>
      exact List.forall_mem_append.2 ⟨refusal?_pending, List.forall_mem_singleton.2 rfl⟩
    | confirmed heads last several early enough fits =>
      refine List.forall_mem_append.2 ⟨refusal?_pending, List.forall_mem_cons.2 ⟨rfl, ?_⟩⟩
      exact List.forall_mem_append.2 ⟨refusal?_headReads, List.forall_mem_singleton.2 rfl⟩
    | lost heads error several early =>
      exact ⟨⟨.blockNumber, .error error⟩, by simp, rfl⟩

/-- A replay asks one question and never fails. -/
theorem refuses_replayReason (target : Address) (data : Bytes) :
    (replayReason target data).Ensures Refuses := by
  unfold replayReason
  have asked : (ClientM.attempt (ClientM.query (.call target data))).Ensures Refuses :=
    .attempt (ClientM.ensures_query fun reply => List.forall_mem_singleton.2 rfl)
  apply ClientM.refuses_bind asked
  intro outcome
  cases outcome with
  | ok answer => exact ClientM.refuses_pure _
  | error error =>
    dsimp only
    split <;> exact ClientM.refuses_pure _

theorem refuses_submitAndConfirm (target : Address) (data : Bytes) (confirmations : UInt64) :
    (submitAndConfirm target data confirmations).Ensures Refuses := by
  unfold submitAndConfirm
  apply ClientM.refuses_bind (refuses_send target data)
  intro transaction
  apply ClientM.refuses_bind (refuses_waitForReceipt transaction confirmations)
  intro receipt
  split
  · exact ClientM.refuses_pure receipt
  · split
    · exact ClientM.refuses_pure receipt
    · apply ClientM.refuses_bind (refuses_replayReason target data)
      intro reason
      exact ClientM.refuses_pure _

theorem silent_waitForReceipt (transaction : Hash) (confirmations : UInt64) :
    (waitForReceipt transaction confirmations).Silent := by
  unfold waitForReceipt
  apply (ClientM.silent_poll _ _).bind
  intro answer
  cases answer with
  | none => exact ClientM.silent_known _
  | some receipt =>
    dsimp only
    split
    · exact (ClientM.silent_poll _ _).bind fun _ => ClientM.silent_known _
    · exact ClientM.silent_known _

theorem silent_replayReason (target : Address) (data : Bytes) :
    (replayReason target data).Silent := by
  unfold replayReason
  apply (ClientM.silent_query _).attempt.bind
  intro outcome
  cases outcome with
  | ok answer => exact ClientM.silent_known _
  | error error =>
    dsimp only
    split <;> exact ClientM.silent_known _

theorem silent_submitAndConfirm (target : Address) (data : Bytes) (confirmations : UInt64) :
    (submitAndConfirm target data confirmations).Silent := by
  unfold submitAndConfirm
  apply (ClientM.silent_query _).bind
  intro transaction
  apply (silent_waitForReceipt transaction confirmations).bind
  intro receipt
  split
  · exact ClientM.silent_known _
  · split
    · exact ClientM.silent_known _
    · exact (silent_replayReason target data).bind fun _ => ClientM.silent_known _

end Settlement

/-- A submission of a signed request, what the ledger was asked and replied, and what came of it. -/
structure Relayed where
  request : Request
  policy : AccountPolicy
  set : SignatureSet
  log : List Exchange
  result : Except RelayError Receipt

namespace Relayed

variable {context : RelayContext} {relayed : Relayed}

/-- The request came as far as its transaction. -/
def reached (context : RelayContext) (relayed : Relayed) : Bool :=
  (context.relayCall relayed.request relayed.policy relayed.set).isOk

def confirmed (relayed : Relayed) : Bool := relayed.result.isOk

/-- The submission failed with an error of a kind. -/
def fails (kind : RelayError → Bool) (relayed : Relayed) : Bool :=
  match relayed.result with
  | .ok _ => false
  | .error error => kind error

/-- The failure is what the ledger gave for an answer: to the transaction itself, or to a question
for its receipt or for the head. -/
def refused (relayed : Relayed) : Bool :=
  relayed.fails fun error => relayed.log.any fun exchange => exchange.refusal? = some error

/-- The failure is one of a kind and stands in a receipt. -/
def reverted (kind : RelayError → Bool) (relayed : Relayed) : Bool :=
  relayed.fails kind && !relayed.refused

/-- How a submission ends, and what it counts. -/
inductive Row (context : RelayContext) (relayed : Relayed) : List Counter → Prop
  | unsent {error : RelayError}
      (uncalled : context.relayCall relayed.request relayed.policy relayed.set = .error error)
      (unasked : relayed.log = []) (result : relayed.result = .error error) : Row context relayed []
  | included {receipt : Receipt} (sent : relayed.reached context = true)
      (result : relayed.result = .ok receipt) :
      Row context relayed [.relaysSubmitted, .relaysConfirmed]
  | undone {receipt : Receipt} {error : RelayError} (sent : relayed.reached context = true)
      (failed : receipt.result = .error error)
      (answered : ∀ exchange ∈ relayed.log, exchange.refusal? = none)
      (result : relayed.result = .error error) :
      Row context relayed (.relaysSubmitted :: .relaysReverted ::
        if error.isResubmittable then [.sequenceMismatches] else [])
  | unanswered {error : RelayError} (sent : relayed.reached context = true)
      (told : ∃ exchange ∈ relayed.log, exchange.refusal? = some error)
      (result : relayed.result = .error error) : Row context relayed [.relaysSubmitted]

end Relayed

theorem RelayError.isResubmittable_of_unsurfaced {error : RelayError}
    (unsurfaced : error.isLedgerSurfaced = false) : error.isResubmittable = false := by
  cases error with
  | sequenceMismatch reason => cases unsurfaced
  | _ => rfl

theorem Receipt.isLedgerSurfaced_of_result {receipt : Receipt} {error : RelayError}
    (failed : receipt.result = .error error) : error.isLedgerSurfaced = true := by
  unfold result at failed
  split_ifs at failed
  rw [← Except.error.inj failed]
  exact RelayError.isLedgerSurfaced_ofRevert _

theorem RelayContext.isLedgerSurfaced_of_relayCall {context : RelayContext} {request : Request}
    {policy : AccountPolicy} {set : SignatureSet} {error : RelayError}
    (refused : context.relayCall request policy set = .error error) :
    error.isLedgerSurfaced = false := by
  unfold relayCall encode operation at refused
  split at refused
  · rename_i operation known
    rw [ok_bind] at refused
    cases encoding : (request.encode operation).mapError RelayError.invalidPayload with
    | error other =>
      rw [encoding] at refused
      cases refused
      obtain ⟨cause, -, rfl⟩ := mapError_eq_error.1 encoding
      rfl
    | ok encoded =>
      rw [encoding, ok_bind] at refused
      unfold EncodedRequest.relayCalldata at refused
      split at refused
      · rename_i cause unselected
        rw [← Except.error.inj refused]
        rcases AccountPolicy.selectPath_eq_error unselected with ⟨-, rfl⟩ | ⟨fault, rfl⟩
        · rfl
        · rfl
      · split at refused
        · cases refused
        · cases refused
          rfl
      · cases refused
  · cases refused
    rfl

namespace RelayContext

variable {context : RelayContext} {request : Request} {policy : AccountPolicy}
  {set : SignatureSet} {limit : Nat} {metrics after : Metrics} {state next : σ}
  {log : List Exchange}

/-- How a dispatch of a spelled relay call ends, and what it counts. -/
theorem dispatch_cases {calldata : Bytes} {result : Except RelayError RelayOutcome}
    (spelled : context.relayCall request policy set = .ok calldata)
    (ran : (context.dispatch request policy set).run.run ledger.recorded limit metrics (state, [])
      = some (result, after, next, log)) :
    (∃ outcome, result = .ok outcome ∧ (∀ exchange ∈ log, exchange.refusal? = none) ∧
      after = metrics.bumpAll [.relaysSubmitted,
        if outcome.receipt.success then .relaysConfirmed else .relaysReverted]) ∨
    (∃ error, result = .error error ∧ (∃ exchange ∈ log, exchange.refusal? = some error) ∧
      after = metrics.bumpAll [.relaysSubmitted]) := by
  rw [dispatch_eq, spelled, ClientM.known_ok_bind] at ran
  obtain ⟨limit, ran⟩ := ClientM.exists_run_of_bump ran
  have settled {outcome : Except RelayError Receipt} {first : Nat} {middle : Metrics}
      {between : σ × List Exchange}
      (submitted : (Settlement.submitAndConfirm context.config.relayAddress calldata
        context.config.effectiveConfirmations).run.run ledger.recorded first
          (metrics.bump .relaysSubmitted) (state, []) = some (outcome, middle, between)) :
      middle = metrics.bump .relaysSubmitted ∧ Refuses between.2 outcome := by
    refine ⟨(Settlement.silent_submitAndConfirm _ _ _).metrics_of_run submitted, ?_⟩
    obtain ⟨added, told, trace⟩ := Client.traces_of_run submitted
    rw [told]
    exact Settlement.refuses_submitAndConfirm _ _ _ added outcome trace
  rcases ClientM.run_bind_cases ran with
    ⟨first, later, receipt, middle, between, submitted, behind⟩ | ⟨first, error, submitted, rfl⟩
  · obtain ⟨rfl, refuses⟩ := settled submitted
    left
    split at behind
    · rename_i success
      obtain ⟨later, behind⟩ := ClientM.exists_run_of_bump behind
      cases Client.eq_of_run_done behind
      exact ⟨_, rfl, refuses, by rw [if_pos success]; rfl⟩
    · rename_i failure
      obtain ⟨later, behind⟩ := ClientM.exists_run_of_bump behind
      cases Client.eq_of_run_done behind
      exact ⟨_, rfl, refuses, by rw [if_neg failure]; rfl⟩
  · obtain ⟨rfl, refuses⟩ := settled submitted
    exact .inr ⟨error, rfl, refuses, rfl⟩

/-- How a submission ends, and what it counts. -/
theorem exists_row {result : Except RelayError Receipt}
    (ran : (context.submit request policy set).run.run ledger.recorded limit metrics (state, [])
      = some (result, after, next, log)) :
    ∃ row, Relayed.Row context ⟨request, policy, set, log, result⟩ row ∧
      after = metrics.bumpAll row := by
  cases spelled : context.relayCall request policy set with
  | error error =>
    rw [submit_of_refused spelled] at ran
    cases Client.eq_of_run_done ran
    exact ⟨[], .unsent spelled rfl rfl, rfl⟩
  | ok calldata =>
    have reached : (context.relayCall request policy set).isOk = true := by
      rw [spelled]
      rfl
    unfold submit at ran
    rcases ClientM.run_bind_cases ran with
      ⟨first, later, outcome, middle, between, dispatched, behind⟩ |
      ⟨first, error, dispatched, rfl⟩
    · rcases dispatch_cases spelled dispatched with
        ⟨_, same, answered, rfl⟩ | ⟨error, failed, -⟩
      · cases same
        split at behind
        · rename_i receipt succeeded
          cases Client.eq_of_run_done behind
          rw [if_pos (Receipt.result_eq_ok succeeded)]
          exact ⟨_, .included reached rfl, rfl⟩
        · rename_i error failed
          have failure : ¬outcome.receipt.success = true := by
            rw [Receipt.result_eq_error failed]
            exact Bool.false_ne_true
          rw [if_neg failure] at behind
          dsimp only at behind
          split at behind
          · rename_i mismatch
            obtain ⟨later, behind⟩ := ClientM.exists_run_of_bump behind
            cases Client.eq_of_run_done behind
            exact ⟨_, .undone reached failed answered rfl, by rw [if_pos mismatch]; rfl⟩
          · rename_i other
            cases Client.eq_of_run_done behind
            exact ⟨_, .undone reached failed answered rfl, by rw [if_neg other]⟩
      · cases failed
    · rcases dispatch_cases spelled dispatched with
        ⟨outcome, same, -⟩ | ⟨_, same, told, rfl⟩
      · cases same
      · cases same
        exact ⟨_, .unanswered reached told rfl, rfl⟩

/-- Submissions one after the other against a ledger, and the metrics and the ledger after them. -/
inductive Relays (context : RelayContext) (ledger : Ledger σ) :
    Metrics → σ → List Relayed → Metrics → σ → Prop
  | nil (metrics : Metrics) (state : σ) : Relays context ledger metrics state [] metrics state
  | cons {metrics middle after : Metrics} {state between final : σ} {first : Relayed}
      {rest : List Relayed} {limit : Nat}
      (ran : (context.submit first.request first.policy first.set).run.run ledger.recorded limit
        metrics (state, []) = some (first.result, middle, between, first.log))
      (later : Relays context ledger middle between rest after final) :
      Relays context ledger metrics state (first :: rest) after final

end RelayContext

namespace Relayed

variable {context : RelayContext} {relayed : Relayed} {row : List Counter}
  {kind : RelayError → Bool}

/-- What each counter tells of one submission. -/
def counted (context : RelayContext) (relayed : Relayed) : Counter → Bool
  | .relaysSubmitted => relayed.reached context
  | .relaysConfirmed => relayed.confirmed
  | .relaysReverted => relayed.reverted (·.isLedgerSurfaced)
  | .sequenceMismatches => relayed.reverted (·.isResubmittable)
  | _ => false

theorem fails_of_ok {receipt : Receipt} (result : relayed.result = .ok receipt) :
    relayed.fails kind = false := by
  unfold fails
  rw [result]

theorem fails_of_error {error : RelayError} (result : relayed.result = .error error) :
    relayed.fails kind = kind error := by
  unfold fails
  rw [result]

theorem confirmed_of_ok {receipt : Receipt} (result : relayed.result = .ok receipt) :
    relayed.confirmed = true := by
  unfold confirmed
  rw [result]
  rfl

theorem confirmed_of_error {error : RelayError} (result : relayed.result = .error error) :
    relayed.confirmed = false := by
  unfold confirmed
  rw [result]
  rfl

theorem refused_iff {error : RelayError} (result : relayed.result = .error error) :
    relayed.refused = true ↔ ∃ exchange ∈ relayed.log, exchange.refusal? = some error := by
  unfold refused
  rw [fails_of_error result, List.any_eq_true]
  simp only [decide_eq_true_eq]

theorem refused_of_answered {error : RelayError} (result : relayed.result = .error error)
    (answered : ∀ exchange ∈ relayed.log, exchange.refusal? = none) : relayed.refused = false := by
  rw [← Bool.not_eq_true, refused_iff result]
  rintro ⟨exchange, listed, told⟩
  rw [answered exchange listed] at told
  cases told

theorem reached_of_error {error : RelayError}
    (uncalled : context.relayCall relayed.request relayed.policy relayed.set = .error error) :
    relayed.reached context = false := by
  unfold reached
  rw [uncalled]
  rfl

/-- A submission counts for each counter once or not at all. -/
theorem Row.count (ends : Row context relayed row) (counter : Counter) :
    row.count counter = (relayed.counted context counter).toNat := by
  cases ends with
  | unsent uncalled unasked result =>
    have unsurfaced := RelayContext.isLedgerSurfaced_of_relayCall uncalled
    have final := RelayError.isResubmittable_of_unsurfaced unsurfaced
    cases counter <;> simp [counted, reverted, reached_of_error uncalled, confirmed_of_error result,
      fails_of_error result, unsurfaced, final]
  | included sent result =>
    cases counter <;> simp [counted, reverted, sent, confirmed_of_ok result, fails_of_ok result]
  | @undone receipt error sent failed answered result =>
    have surfaced := Receipt.isLedgerSurfaced_of_result failed
    have unrefused := refused_of_answered result answered
    cases mismatch : error.isResubmittable <;> cases counter <;>
      simp [counted, reverted, sent, confirmed_of_error result, fails_of_error result, surfaced,
        unrefused, mismatch]
  | unanswered sent told result =>
    have refused := (refused_iff result).2 told
    cases counter <;> simp [counted, reverted, sent, confirmed_of_error result, refused]

/-- What reached its transaction is confirmed, reverted or without an answer. -/
theorem Row.balance (ends : Row context relayed row) :
    (relayed.reached context).toNat = relayed.confirmed.toNat
      + (relayed.reverted (·.isLedgerSurfaced)).toNat + relayed.refused.toNat := by
  cases ends with
  | unsent uncalled unasked result =>
    have unsurfaced := RelayContext.isLedgerSurfaced_of_relayCall uncalled
    have unrefused : relayed.refused = false :=
      refused_of_answered result (by rw [unasked]; exact List.forall_mem_nil _)
    simp [reverted, reached_of_error uncalled, confirmed_of_error result, fails_of_error result,
      unsurfaced, unrefused]
  | included sent result =>
    have unrefused : relayed.refused = false := fails_of_ok result
    simp [reverted, sent, confirmed_of_ok result, fails_of_ok result, unrefused]
  | undone sent failed answered result =>
    have surfaced := Receipt.isLedgerSurfaced_of_result failed
    have unrefused := refused_of_answered result answered
    simp [reverted, sent, confirmed_of_error result, fails_of_error result, surfaced, unrefused]
  | unanswered sent told result =>
    have refused := (refused_iff result).2 told
    simp [reverted, sent, confirmed_of_error result, refused]

/-- A ledger's revert comes after the transaction. -/
theorem Row.reached_of_surfaced (ends : Row context relayed row)
    (surfaced : relayed.fails (·.isLedgerSurfaced) = true) : relayed.reached context = true := by
  cases ends with
  | unsent uncalled unasked result =>
    rw [fails_of_error result, RelayContext.isLedgerSurfaced_of_relayCall uncalled] at surfaced
    cases surfaced
  | included sent => exact sent
  | undone sent => exact sent
  | unanswered sent => exact sent

/-- A failure that is no refused answer stands in a receipt. -/
theorem reverted_eq_fails
    (told : relayed.refused = true → relayed.fails (·.isLedgerSurfaced) = false)
    (surfaced : relayed.fails kind = true → relayed.fails (·.isLedgerSurfaced) = true) :
    relayed.reverted kind = relayed.fails kind := by
  unfold reverted
  cases refused : relayed.refused with
  | false => exact Bool.and_true _
  | true =>
    cases failed : relayed.fails kind with
    | false => rfl
    | true =>
      rw [told refused] at surfaced
      exact absurd (surfaced failed) Bool.false_ne_true

theorem surfaced_of_resubmittable (mismatch : relayed.fails (·.isResubmittable) = true) :
    relayed.fails (·.isLedgerSurfaced) = true := by
  cases result : relayed.result with
  | ok receipt =>
    rw [fails_of_ok result] at mismatch
    cases mismatch
  | error error =>
    rw [fails_of_error result] at mismatch ⊢
    cases surfaced : error.isLedgerSurfaced with
    | false =>
      rw [RelayError.isResubmittable_of_unsurfaced surfaced] at mismatch
      cases mismatch
    | true => rfl

end Relayed

namespace RelayContext.Relays

variable {context : RelayContext} {metrics after : Metrics} {state final : σ}
  {relayed : List Relayed}

theorem row_of_mem (ran : context.Relays ledger metrics state relayed after final) :
    ∀ one ∈ relayed, ∃ row, one.Row context row := by
  induction ran with
  | nil => exact List.forall_mem_nil _
  | cons ran later ih =>
    obtain ⟨row, ends, -⟩ := exists_row ran
    exact List.forall_mem_cons.2 ⟨⟨row, ends⟩, ih⟩

/-- A run adds to each counter how many of its submissions count for it. -/
theorem get_eq (ran : context.Relays ledger metrics state relayed after final)
    (counter : Counter) :
    after.get counter = metrics.get counter
      + UInt64.ofNat (relayed.countP (·.counted context counter)) := by
  induction ran with
  | nil => exact (UInt64.add_zero _).symm
  | @cons metrics middle after state between final first rest limit ran later ih =>
    obtain ⟨row, ends, rfl⟩ := exists_row ran
    have one := ends.count counter
    rw [ih, Metrics.get_bumpAll, one, List.countP_cons, UInt64.add_assoc, ← UInt64.ofNat_add,
      Nat.add_comm]
    cases first.counted context counter <;> rfl

theorem balance (ran : context.Relays ledger metrics state relayed after final) :
    relayed.countP (·.reached context) = relayed.countP (·.confirmed)
      + relayed.countP (·.reverted (·.isLedgerSurfaced)) + relayed.countP (·.refused) := by
  have rows := ran.row_of_mem
  clear ran
  induction relayed with
  | nil => rfl
  | cons first rest ih =>
    obtain ⟨⟨row, ends⟩, rows⟩ := List.forall_mem_cons.1 rows
    have one := ends.balance
    have others := ih rows
    simp only [List.countP_cons]
    revert one
    cases first.reached context <;> cases first.confirmed <;>
      cases first.reverted (·.isLedgerSurfaced) <;> cases first.refused <;> simp <;> omega

/-- After submissions against any ledger the counters tell how many were sent, confirmed, reverted
and mismatched, as far as receipts tell reverts: what was sent is confirmed, reverted in its receipt
or refused an answer. A revert that the ledger gives for an answer is counted as none, so the
counters tell all reverts if there is no such answer. -/
theorem relays_counted_but_refused_reverts
    (ran : context.Relays ledger metrics state relayed after final) :
    after.relaysSubmitted
        = metrics.relaysSubmitted + UInt64.ofNat (relayed.countP (·.reached context)) ∧
    after.relaysConfirmed
        = metrics.relaysConfirmed + UInt64.ofNat (relayed.countP (·.confirmed)) ∧
    after.relaysReverted = metrics.relaysReverted
        + UInt64.ofNat (relayed.countP (·.reverted (·.isLedgerSurfaced))) ∧
    after.sequenceMismatches = metrics.sequenceMismatches
        + UInt64.ofNat (relayed.countP (·.reverted (·.isResubmittable))) ∧
    relayed.countP (·.reached context) = relayed.countP (·.confirmed)
      + relayed.countP (·.reverted (·.isLedgerSurfaced)) + relayed.countP (·.refused) ∧
    (∀ one ∈ relayed, one.fails (·.isLedgerSurfaced) = true → one.reached context = true) ∧
    ((∀ one ∈ relayed, one.refused = true → one.fails (·.isLedgerSurfaced) = false) →
      after.relaysReverted = metrics.relaysReverted
        + UInt64.ofNat (relayed.countP (·.fails (·.isLedgerSurfaced))) ∧
      after.sequenceMismatches = metrics.sequenceMismatches
        + UInt64.ofNat (relayed.countP (·.fails (·.isResubmittable)))) := by
  have reverts := ran.get_eq .relaysReverted
  have mismatches := ran.get_eq .sequenceMismatches
  refine ⟨ran.get_eq .relaysSubmitted, ran.get_eq .relaysConfirmed, reverts, mismatches,
    ran.balance, ?_, fun told => ⟨?_, ?_⟩⟩
  · intro one listed surfaced
    obtain ⟨row, ends⟩ := ran.row_of_mem one listed
    exact ends.reached_of_surfaced surfaced
  · have same : ∀ one ∈ relayed, one.reverted (·.isLedgerSurfaced) = true ↔
        one.fails (·.isLedgerSurfaced) = true := by
      intro one listed
      rw [Relayed.reverted_eq_fails (told one listed) id]
    rw [← List.countP_congr same]
    exact reverts
  · have same : ∀ one ∈ relayed, one.reverted (·.isResubmittable) = true ↔
        one.fails (·.isResubmittable) = true := by
      intro one listed
      rw [Relayed.reverted_eq_fails (told one listed) Relayed.surfaced_of_resubmittable]
    rw [← List.countP_congr same]
    exact mismatches

/-- One of two submissions is reverted for its sequence number. -/
theorem relays_counted_but_refused_reverts_mismatch :
    let burn : OperationType :=
      ⟨"BurnToken", [.sender, .nonce, ⟨"tokenId", .uint 256⟩], 0,
        Abi.functionSelector "burnToken(uint256)"⟩
    let config : Config := { relayAddress := 1, custodyAddress := 2, multiSendAddress := 3 }
    let context : RelayContext := ⟨config, config.domain 1, ⟨[burn]⟩⟩
    let script : Script :=
      { send := [.ok 8, .ok 9]
        receipt := [.ok fun transaction => some ⟨transaction, 1, true, none⟩,
          .ok fun transaction => some ⟨transaction, 2, false, some "Relay: invalid nonce"⟩] }
    let results : List (Except RelayError Receipt) :=
      [.ok ⟨8, 1, true, none⟩, .error (.sequenceMismatch "Relay: invalid nonce")]
    ∃ relayed after final, context.Relays Script.ledger {} script relayed after final ∧
      relayed.map (·.result) = results ∧
      after.relaysReverted
        = 0 + UInt64.ofNat (relayed.countP (·.reverted (·.isLedgerSurfaced))) := by
  intro burn config context script results
  let request : Request := ⟨"BurnToken", 7, 0, [("tokenId", .integer 5)]⟩
  let set : SignatureSet := ⟨[⟨7, []⟩]⟩
  let submit := (context.submit request .singleKey set).run
  have evaluated : (do
      let (result, middle, between, _) ← submit.run Script.ledger.recorded 9 {} (script, [])
      let (result', _) ← submit.run Script.ledger.recorded 9 middle (between, [])
      return decide ([result, result'] = results)) = some true := by
    decide +kernel
  obtain ⟨⟨result, middle, between, log⟩, ran, evaluated⟩ := Option.bind_eq_some_iff.1 evaluated
  obtain ⟨⟨result', after, final, log'⟩, ran', verdict⟩ := Option.bind_eq_some_iff.1 evaluated
  let relayed : List Relayed :=
    [⟨request, .singleKey, set, log, result⟩, ⟨request, .singleKey, set, log', result'⟩]
  have relays : context.Relays Script.ledger {} script relayed after final :=
    .cons ran (.cons ran' (.nil after final))
  exact ⟨relayed, after, final, relays, of_decide_eq_true (Option.some.inj verdict),
    (relays_counted_but_refused_reverts relays).2.2.1⟩

/-- A transaction that the node refuses for its sequence number is counted neither as reverted nor
as a mismatch, though the submission fails with the mismatch. -/
theorem refused_revert_uncounted :
    let burn : OperationType :=
      ⟨"BurnToken", [.sender, .nonce, ⟨"tokenId", .uint 256⟩], 0,
        Abi.functionSelector "burnToken(uint256)"⟩
    let config : Config := { relayAddress := 1, custodyAddress := 2, multiSendAddress := 3 }
    let context : RelayContext := ⟨config, config.domain 1, ⟨[burn]⟩⟩
    let script : Script := { send := [.error (.ofRevert "Relay: invalid nonce")] }
    ∃ relayed after final, context.Relays Script.ledger {} script [relayed] after final ∧
      relayed.reached context = true ∧
      relayed.result = .error (.sequenceMismatch "Relay: invalid nonce") ∧
      after = { relaysSubmitted := 1 } := by
  intro burn config context script
  let request : Request := ⟨"BurnToken", 7, 0, [("tokenId", .integer 5)]⟩
  let set : SignatureSet := ⟨[⟨7, []⟩]⟩
  have evaluated : (do
      let (result, after, _) ← (context.submit request .singleKey set).run.run
        Script.ledger.recorded 9 {} (script, [])
      return decide (result = .error (.sequenceMismatch "Relay: invalid nonce") ∧
        after = { relaysSubmitted := 1 } ∧
        (context.relayCall request .singleKey set).isOk = true)) = some true := by
    decide +kernel
  obtain ⟨⟨result, after, final, log⟩, ran, verdict⟩ := Option.bind_eq_some_iff.1 evaluated
  obtain ⟨rfl, rfl, reached⟩ := of_decide_eq_true (Option.some.inj verdict)
  exact ⟨⟨request, .singleKey, set, log, _⟩, _, final, .cons ran (.nil _ _), reached, rfl, rfl⟩

end RelayContext.Relays

end GaslessRelay
