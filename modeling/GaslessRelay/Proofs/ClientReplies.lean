import GaslessRelay.Proofs.ClientTraces

/-!
The traces of a program, taken apart and found again in runs. The traces of a sequence are those of
its parts (`ClientM.traces_bind_iff`), and a poll passes over insufficient answers only
(`ClientM.traces_poll_iff`). A program logs just those of its traces whose replies the ledger gives
(`ClientM.logs_iff`), so what all traces say is also what every ledger makes happen.
-/

namespace GaslessRelay

variable {σ α β : Type} {ledger : Ledger σ}

namespace Client

theorem Traces.bind {program : Client α} {next : α → Client β} {first later : List Exchange}
    {result : α} {final : β} (trace : program.Traces first result)
    (behind : (next result).Traces later final) :
    (program.bind next).Traces (first ++ later) final := by
  induction trace with
  | done => exact behind
  | count continued ih => exact .count (ih behind)
  | again repeated continued ih => exact .again repeated (ih behind)
  | reply final continued ih => exact .reply final (ih behind)

theorem traces_done_iff {value result : α} {log : List Exchange} :
    (Client.done value).Traces log result ↔ log = [] ∧ result = value := by
  constructor
  · intro trace
    cases trace
    exact ⟨rfl, rfl⟩
  · rintro ⟨rfl, rfl⟩
    exact .done result

/-- A run of a sequence is a run of its first part and a run of the rest. -/
theorem exists_run_of_bind {program : Client α} {next : α → Client β} {limit : Nat}
    {metrics : Metrics} {state : σ} {ended : β × Metrics × σ}
    (ran : (program.bind next).run ledger limit metrics state = some ended) :
    ∃ first later result middle between,
      program.run ledger first metrics state = some (result, middle, between) ∧
        (next result).run ledger later middle between = some ended := by
  induction limit generalizing program metrics state with
  | zero =>
    cases program with
    | done result => exact ⟨0, 0, result, metrics, state, rfl, ran⟩
    | count counter rest => cases ran
    | ask request again rest => cases ran
  | succ limit ih =>
    cases program with
    | done result => exact ⟨0, limit + 1, result, metrics, state, rfl, ran⟩
    | count counter rest =>
      obtain ⟨first, later, result, middle, between, before, behind⟩ := ih ran
      exact ⟨first + 1, later, result, middle, between, before, behind⟩
    | ask request again rest =>
      obtain ⟨fewer, reply, told, same, answered, continued⟩ := run_ask_eq_some ran
      cases same
      rw [← resume_bind] at continued
      obtain ⟨first, later, result, middle, between, before, behind⟩ := ih continued
      exact ⟨first + 1, later, result, middle, between, (run_ask answered).trans before, behind⟩

theorem eq_of_run_done {value : α} {limit : Nat} {metrics : Metrics} {state : σ}
    {ended : α × Metrics × σ} (ran : (done value).run ledger limit metrics state = some ended) :
    ended = (value, metrics, state) := by
  cases limit <;> exact (Option.some.inj ran).symm

/-- A program runs along every trace that the ledger replies to. -/
theorem run_of_traces {program : Client α} {log : List Exchange} {result : α}
    (trace : program.Traces log result) {metrics : Metrics} {state : σ} {before : List Exchange}
    (replies : ledger.Replies state log) :
    ∃ limit metrics' after, program.run ledger.recorded limit metrics (state, before)
      = some (result, metrics', after, before ++ log) := by
  induction trace generalizing metrics state before with
  | done result => exact ⟨0, metrics, state, by rw [List.append_nil]; rfl⟩
  | count continued ih =>
    obtain ⟨limit, metrics', after, ran⟩ := ih replies
    exact ⟨limit + 1, metrics', after, ran⟩
  | @again request again next reply log result repeated continued ih =>
    obtain ⟨told, replies⟩ := replies
    obtain ⟨limit, metrics', after, ran⟩ := ih replies
    refine ⟨limit + 1, metrics', after, ?_⟩
    rw [run_ask (recorded_answer (Prod.ext told rfl) before), resume, if_pos repeated,
      List.append_cons before _ log]
    exact ran
  | @reply request again next reply log result final continued ih =>
    obtain ⟨told, replies⟩ := replies
    obtain ⟨limit, metrics', after, ran⟩ := ih replies
    refine ⟨limit + 1, metrics', after, ?_⟩
    rw [run_ask (recorded_answer (Prod.ext told rfl) before), resume, if_neg (by simp [final]),
      List.append_cons before _ log]
    exact ran

end Client

namespace ClientM

/-- The log of a program is a trace that the ledger replies to, and each such trace is a log. -/
theorem logs_iff {program : ClientM α} {state : σ} {log : List Exchange}
    {result : Except RelayError α} : program.Logs ledger state log result ↔
      ledger.Replies state log ∧ program.run.Traces log result := by
  constructor
  · rintro ⟨limit, metrics, metrics', after, ran⟩
    obtain ⟨added, rfl, replies, trace⟩ := Client.replies_of_run ran
    exact ⟨replies, trace⟩
  · rintro ⟨replies, trace⟩
    obtain ⟨limit, metrics', after, ran⟩ :=
      @Client.run_of_traces _ _ ledger _ _ _ trace {} state [] replies
    exact ⟨limit, {}, metrics', after, ran⟩

/-- A run of a sequence ends with a failure of its first part, or goes on with its value. -/
theorem run_bind_cases {program : ClientM α} {next : α → ClientM β} {limit : Nat}
    {metrics after : Metrics} {state final : σ} {result : Except RelayError β}
    (ran : (program >>= next).run.run ledger limit metrics state = some (result, after, final)) :
    (∃ first later value middle between,
      program.run.run ledger first metrics state = some (.ok value, middle, between) ∧
        (next value).run.run ledger later middle between = some (result, after, final)) ∨
    ∃ first error, program.run.run ledger first metrics state = some (.error error, after, final) ∧
      result = .error error := by
  obtain ⟨first, later, outcome, middle, between, before, behind⟩ := Client.exists_run_of_bind ran
  cases outcome with
  | ok value => exact .inl ⟨first, later, value, middle, between, before, behind⟩
  | error error =>
    cases Client.eq_of_run_done behind
    exact .inr ⟨first, error, before, rfl⟩

theorem exists_run_of_bump {counter : Counter} {next : Unit → ClientM β} {limit : Nat}
    {metrics : Metrics} {state : σ} {ended : Except RelayError β × Metrics × σ}
    (ran : (bump counter >>= next).run.run ledger limit metrics state = some ended) :
    ∃ later, (next ()).run.run ledger later (metrics.bump counter) state = some ended := by
  cases limit with
  | zero => cases ran
  | succ later => exact ⟨later, ran⟩

theorem traces_bind_iff {program : ClientM α} {next : α → ClientM β} {log : List Exchange}
    {final : Except RelayError β} : (program >>= next).run.Traces log final ↔
      (∃ first later value, log = first ++ later ∧ program.run.Traces first (.ok value) ∧
        (next value).run.Traces later final) ∨
      ∃ error, program.run.Traces log (.error error) ∧ final = .error error := by
  constructor
  · intro trace
    obtain ⟨first, later, outcome, rfl, before, behind⟩ := Client.Traces.of_bind trace
    cases outcome with
    | ok value => exact .inl ⟨first, later, value, rfl, before, behind⟩
    | error error =>
      cases behind
      rw [List.append_nil]
      exact .inr ⟨error, before, rfl⟩
  · rintro (⟨first, later, value, rfl, before, behind⟩ | ⟨error, before, rfl⟩)
    · exact before.bind behind
    · rw [← List.append_nil log]
      exact before.bind (.done _)

theorem traces_pure_iff {value : α} {log : List Exchange} {result : Except RelayError α} :
    (pure value : ClientM α).run.Traces log result ↔ log = [] ∧ result = .ok value :=
  Client.traces_done_iff

/-- A poll ends with the first failure or sufficient answer. -/
theorem traces_poll_iff {request : LedgerRequest} {enough : request.Answer → Bool}
    {log : List Exchange} {result : Except RelayError request.Answer} :
    (poll request enough).run.Traces log result ↔
      ∃ passed : List request.Answer, (∀ answer ∈ passed, enough answer = false) ∧
        (∀ answer, result = .ok answer → enough answer = true) ∧
        log = passed.map (fun answer => ⟨request, .ok answer⟩) ++ [⟨request, result⟩] := by
  constructor
  · intro trace
    generalize whole : (poll request enough).run = asked at trace
    induction trace with
    | done => cases whole
    | count => cases whole
    | again repeated continued ih =>
      cases whole
      obtain ⟨passed, insufficient, last, rfl⟩ := ih rfl
      rename_i reply
      cases reply with
      | error error => cases repeated
      | ok answer =>
        have missed : enough answer = false := by simpa using repeated
        exact ⟨answer :: passed, List.forall_mem_cons.2 ⟨missed, insufficient⟩, last, rfl⟩
    | reply final behind =>
      cases whole
      cases behind
      refine ⟨[], List.forall_mem_nil _, fun answer same => ?_, rfl⟩
      rw [same] at final
      simpa using final
  · rintro ⟨passed, insufficient, last, rfl⟩
    induction passed with
    | nil =>
      refine .reply ?_ (.done result)
      cases result with
      | ok answer => simpa using last answer rfl
      | error error => rfl
    | cons answer passed ih =>
      obtain ⟨missed, insufficient⟩ := List.forall_mem_cons.1 insufficient
      exact .again (by simpa using missed) (ih insufficient)

end ClientM

end GaslessRelay
