import GaslessRelay.Proofs.LedgerRuns

/-!
What a program of the client asked and was told. A recorded ledger keeps its exchanges, and a run
against it is a trace of the program that the ledger replies to (`Client.replies_of_run`). What a
program ensures holds of all its traces, whatever the replies are; programs in sequence ensure it
together (`ClientM.Ensures.bind`).
-/

namespace GaslessRelay

variable {σ α β : Type} {ledger : Ledger σ}

structure Exchange where
  request : LedgerRequest
  reply : request.Reply

/-- The ledger with a record of its exchanges, the oldest first. -/
def Ledger.recorded (ledger : Ledger σ) : Ledger (σ × List Exchange) where
  answer before request :=
    match ledger.answer before.1 request with
    | (some reply, state) => (some reply, state, before.2 ++ [⟨request, reply⟩])
    | (none, state) => (none, state, before.2)

/-- The ledger gives the replies of a log, one after the other. -/
def Ledger.Replies (ledger : Ledger σ) : σ → List Exchange → Prop
  | _, [] => True
  | state, exchange :: later =>
    (ledger.answer state exchange.request).1 = some exchange.reply ∧
      ledger.Replies (ledger.answer state exchange.request).2 later

namespace Client

theorem recorded_answer {request : LedgerRequest} {reply : request.Reply} {state after : σ}
    (answered : ledger.answer state request = (some reply, after)) (log : List Exchange) :
    ledger.recorded.answer (state, log) request
      = (some reply, after, log ++ [⟨request, reply⟩]) := by
  simp only [Ledger.recorded, answered]

theorem recorded_silent {request : LedgerRequest} {state after : σ}
    (unanswered : ledger.answer state request = (none, after)) (log : List Exchange) :
    ledger.recorded.answer (state, log) request = (none, after, log) := by
  simp only [Ledger.recorded, unanswered]

/-- The record changes nothing else of a run. -/
theorem run_recorded {program : Client α} {limit : Nat} {metrics : Metrics} {state : σ}
    {log : List Exchange} :
    (program.run ledger.recorded limit metrics (state, log)).map
        (fun ended => (ended.1, ended.2.1, ended.2.2.1))
      = program.run ledger limit metrics state := by
  induction limit generalizing program metrics state log with
  | zero => cases program <;> rfl
  | succ limit ih =>
    cases program with
    | done result => rfl
    | count counter rest => exact ih
    | ask request again next =>
      rcases answered : ledger.answer state request with ⟨_ | reply, after⟩
      · rw [run_ask_silent answered, run_ask_silent (recorded_silent answered log)]
        rfl
      · rw [run_ask answered, run_ask (recorded_answer answered log)]
        exact ih

/-- A program ends with a result after exchanges, the replies being whatever they are. -/
inductive Traces : Client α → List Exchange → α → Prop
  | done (result : α) : Traces (.done result) [] result
  | count {counter : Counter} {rest : Client α} {log : List Exchange} {result : α}
      (continued : Traces rest log result) : Traces (.count counter rest) log result
  | again {request : LedgerRequest} {again : request.Reply → Bool}
      {next : request.Reply → Client α} {reply : request.Reply} {log : List Exchange} {result : α}
      (repeated : again reply = true) (continued : Traces (.ask request again next) log result) :
      Traces (.ask request again next) (⟨request, reply⟩ :: log) result
  | reply {request : LedgerRequest} {again : request.Reply → Bool}
      {next : request.Reply → Client α} {reply : request.Reply} {log : List Exchange} {result : α}
      (final : again reply = false) (continued : Traces (next reply) log result) :
      Traces (.ask request again next) (⟨request, reply⟩ :: log) result

theorem Traces.resumed {request : LedgerRequest} {again : request.Reply → Bool}
    {next : request.Reply → Client α} {reply : request.Reply} {log : List Exchange} {result : α}
    (continued : (resume again next reply).Traces log result) :
    (ask request again next).Traces (⟨request, reply⟩ :: log) result := by
  unfold resume at continued
  split at continued
  · rename_i repeated
    exact .again repeated continued
  · rename_i final
    exact .reply (by simpa using final) continued

/-- A run against a recorded ledger adds to the record what the ledger replies, which is a trace of
the program. -/
theorem replies_of_run {program : Client α} {limit : Nat} {metrics metrics' : Metrics}
    {state after : σ} {before log : List Exchange} {result : α}
    (ran : program.run ledger.recorded limit metrics (state, before)
      = some (result, metrics', after, log)) :
    ∃ added, log = before ++ added ∧ ledger.Replies state added ∧ program.Traces added result := by
  induction limit generalizing program metrics state before with
  | zero =>
    cases program with
    | done result =>
      cases ran
      exact ⟨[], (List.append_nil _).symm, trivial, .done result⟩
    | count counter rest => cases ran
    | ask request again next => cases ran
  | succ limit ih =>
    cases program with
    | done result =>
      cases ran
      exact ⟨[], (List.append_nil _).symm, trivial, .done result⟩
    | count counter rest =>
      obtain ⟨added, same, replies, continued⟩ := ih ran
      exact ⟨added, same, replies, .count continued⟩
    | ask request again next =>
      rcases answered : ledger.answer state request with ⟨_ | reply, middle⟩
      · rw [run_ask_silent (recorded_silent answered before)] at ran
        cases ran
      · rw [run_ask (recorded_answer answered before)] at ran
        obtain ⟨added, rfl, replies, continued⟩ := ih ran
        refine ⟨⟨request, reply⟩ :: added, List.append_assoc .., ?_, .resumed continued⟩
        unfold Ledger.Replies
        rw [answered]
        exact ⟨rfl, replies⟩

theorem traces_of_run {program : Client α} {limit : Nat} {metrics metrics' : Metrics}
    {state after : σ} {before log : List Exchange} {result : α}
    (ran : program.run ledger.recorded limit metrics (state, before)
      = some (result, metrics', after, log)) :
    ∃ added, log = before ++ added ∧ program.Traces added result := by
  obtain ⟨added, same, -, trace⟩ := replies_of_run ran
  exact ⟨added, same, trace⟩

theorem Traces.of_bind {program : Client α} {next : α → Client β} {log : List Exchange} {final : β}
    (trace : (program.bind next).Traces log final) :
    ∃ first later result, log = first ++ later ∧ program.Traces first result ∧
      (next result).Traces later final := by
  induction program generalizing log with
  | done result => exact ⟨[], log, result, rfl, .done result, trace⟩
  | count counter rest ih =>
    cases trace with
    | count continued =>
      obtain ⟨first, later, result, same, before, behind⟩ := ih continued
      exact ⟨first, later, result, same, .count before, behind⟩
  | ask request again rest ih =>
    -- The question may be asked again, so the induction goes on along the trace.
    generalize whole : (ask request again rest).bind next = both at trace
    induction trace with
    | done => cases whole
    | count => cases whole
    | again repeated continued ihTrace =>
      cases whole
      obtain ⟨first, later, result, rfl, before, behind⟩ := ihTrace ih rfl
      exact ⟨_ :: first, later, result, rfl, .again repeated before, behind⟩
    | reply final continued =>
      cases whole
      obtain ⟨first, later, result, rfl, before, behind⟩ := ih _ continued
      exact ⟨_ :: first, later, result, rfl, .reply final before, behind⟩

end Client

namespace ClientM

variable {ends middle weaker : List Exchange → Except RelayError α → Prop}
  {final : List Exchange → Except RelayError β → Prop}

/-- Every trace of the program ends as stated. -/
def Ensures (ends : List Exchange → Except RelayError α → Prop) (program : ClientM α) : Prop :=
  ∀ log result, program.run.Traces log result → ends log result

/-- The program ends with a result after the exchanges of a log, and nothing was asked before it. -/
def Logs (ledger : Ledger σ) (program : ClientM α) (state : σ) (log : List Exchange)
    (result : Except RelayError α) : Prop :=
  ∃ limit metrics metrics' after, program.run.run ledger.recorded limit metrics (state, [])
    = some (result, metrics', after, log)

theorem Ensures.of_logs {program : ClientM α} {state : σ} {log : List Exchange}
    {result : Except RelayError α} (ensured : program.Ensures ends)
    (logged : program.Logs ledger state log result) : ends log result := by
  obtain ⟨limit, metrics, metrics', after, ran⟩ := logged
  obtain ⟨added, rfl, trace⟩ := Client.traces_of_run ran
  exact ensured _ result trace

theorem Ensures.weaken {program : ClientM α} (ensured : program.Ensures ends)
    (implies : ∀ log result, ends log result → weaker log result) : program.Ensures weaker :=
  fun log result trace => implies log result (ensured log result trace)

/-- What follows continues the exchanges so far; a failure ends them. -/
theorem Ensures.bind {program : ClientM α} {next : α → ClientM β}
    (first : program.Ensures middle)
    (second : ∀ log value, middle log (.ok value) →
      (next value).Ensures fun later result => final (log ++ later) result)
    (failed : ∀ log error, middle log (.error error) → final log (.error error)) :
    (program >>= next).Ensures final := by
  intro log result trace
  obtain ⟨before, later, outcome, rfl, trace, behind⟩ := Client.Traces.of_bind trace
  have reached := first before outcome trace
  cases outcome with
  | ok value => exact second before value reached later result behind
  | error error =>
    cases behind
    rw [List.append_nil]
    exact failed before error reached

theorem ensures_known {result : Except RelayError α} (holds : ends [] result) :
    (known result).Ensures ends := by
  intro log other trace
  cases trace
  exact holds

theorem known_ok_bind (value : α) (next : α → ClientM β) :
    (known (.ok value) >>= next) = next value := rfl

theorem known_error_bind (error : RelayError) (next : α → ClientM β) :
    (known (.error error) >>= next) = known (.error error) := rfl

theorem ensures_pure {value : α} (holds : ends [] (.ok value)) :
    (pure value : ClientM α).Ensures ends :=
  ensures_known holds

theorem eq_of_logs_known {result other : Except RelayError α} {state : σ} {log : List Exchange}
    (logged : (known result).Logs ledger state log other) : log = [] ∧ result = other := by
  have ended : (known result).Ensures fun log other => log = [] ∧ result = other :=
    ensures_known ⟨rfl, rfl⟩
  exact ended.of_logs logged

theorem ensures_known_bind {result : Except RelayError α} {next : α → ClientM β}
    (continued : ∀ value, result = .ok value → (next value).Ensures final)
    (failed : ∀ error, result = .error error → final [] (.error error)) :
    (known result >>= next).Ensures final := by
  cases result with
  | ok value => exact continued value rfl
  | error error =>
    rw [known_error_bind]
    exact ensures_known (failed error rfl)

theorem ensures_bump_bind {counter : Counter} {next : Unit → ClientM β}
    (continued : (next ()).Ensures final) : (bump counter >>= next).Ensures final := by
  intro log result trace
  cases trace with
  | count trace => exact continued log result trace

theorem ensures_query {request : LedgerRequest}
    {ends : List Exchange → Except RelayError request.Answer → Prop}
    (holds : ∀ reply, ends [⟨request, reply⟩] reply) : (query request).Ensures ends := by
  intro log result trace
  cases trace with
  | again repeated => cases repeated
  | reply final behind =>
    cases behind
    exact holds _

/-- The last reply of a poll is its result. -/
theorem ensures_poll (request : LedgerRequest) (enough : request.Answer → Bool) :
    (poll request enough).Ensures fun log result => ⟨request, result⟩ ∈ log := by
  intro log result trace
  generalize whole : (poll request enough).run = asked at trace
  induction trace with
  | done => cases whole
  | count => cases whole
  | again repeated continued ih => exact List.mem_cons_of_mem _ (ih whole)
  | reply final behind =>
    cases whole
    cases behind
    exact List.mem_cons_self

/-- The failure of an attempt is its value. -/
theorem Ensures.attempt {program : ClientM α}
    {ends : List Exchange → Except RelayError (Except RelayError α) → Prop}
    (inner : program.Ensures fun log result => ends log (.ok result)) :
    (attempt program).Ensures ends := by
  intro log result trace
  change (program.run.bind fun outcome => .done (.ok outcome)).Traces log result at trace
  obtain ⟨before, later, outcome, rfl, first, behind⟩ := trace.of_bind
  cases behind
  rw [List.append_nil]
  exact inner before outcome first

end ClientM

end GaslessRelay
