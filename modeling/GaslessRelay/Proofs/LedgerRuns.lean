import GaslessRelay.Client.Ledger

/-!
Runs of client programs against a ledger that nobody else uses. A program yields a result when it
ends with it after enough steps, whatever was counted before, and it stalls at a question that the
ledger leaves without a reply. What it yields is unique (`Client.Yields.unique`), a program that
stalls yields nothing (`Client.Stalls.not_yields`), and programs in sequence yield what each of them
does (`ClientM.Yields.bind`).
-/

namespace GaslessRelay

variable {σ α β : Type} {ledger : Ledger σ} {state middle after : σ}

namespace Client

/-- The program ends with a result and leaves the ledger in a state. -/
def Yields (ledger : Ledger σ) (program : Client α) (state : σ) (result : α) (after : σ) : Prop :=
  ∀ metrics, ∃ limit metrics', program.run ledger limit metrics state
    = some (result, metrics', after)

section

variable {limit : Nat} {metrics : Metrics} {request : LedgerRequest}
  {again : request.Reply → Bool} {next : request.Reply → Client α} {reply : request.Reply}

/-- What a program does with a reply: it asks again, or goes on. -/
def resume (again : request.Reply → Bool) (next : request.Reply → Client α)
    (reply : request.Reply) : Client α :=
  if again reply then ask request again next else next reply

theorem run_ask (answered : ledger.answer state request = (some reply, middle)) :
    (ask request again next).run ledger (limit + 1) metrics state
      = (resume again next reply).run ledger limit metrics middle := by
  rw [run, answered, resume]
  dsimp only
  split <;> rfl

theorem run_ask_silent (unanswered : ledger.answer state request = (none, after)) :
    (ask request again next).run ledger limit metrics state = none := by
  cases limit with
  | zero => rfl
  | succ limit => rw [run, unanswered]

/-- A run that ends got a reply to its question. -/
theorem run_ask_eq_some {ended : α × Metrics × σ}
    (ran : (ask request again next).run ledger limit metrics state = some ended) :
    ∃ fewer reply middle, limit = fewer + 1 ∧
      ledger.answer state request = (some reply, middle) ∧
      (resume again next reply).run ledger fewer metrics middle = some ended := by
  cases limit with
  | zero => cases ran
  | succ limit =>
    rcases answered : ledger.answer state request with ⟨_ | reply, middle⟩
    · rw [run_ask_silent answered] at ran
      cases ran
    · rw [run_ask answered] at ran
      exact ⟨limit, reply, middle, rfl, rfl, ran⟩

end

theorem run_mono {program : Client α} {limit more : Nat} {metrics : Metrics}
    {ended : α × Metrics × σ} (enough : limit ≤ more)
    (ran : program.run ledger limit metrics state = some ended) :
    program.run ledger more metrics state = some ended := by
  induction limit generalizing more program metrics state with
  | zero =>
    cases program with
    | done result => cases more <;> exact ran
    | count counter rest => cases ran
    | ask request again next => cases ran
  | succ limit ih =>
    obtain ⟨more, rfl⟩ : ∃ fewer, more = fewer + 1 := ⟨more - 1, by omega⟩
    have less : limit ≤ more := Nat.le_of_succ_le_succ enough
    cases program with
    | done result => exact ran
    | count counter rest =>
      have counted : rest.run ledger more (metrics.bump counter) state = some ended := ih less ran
      exact counted
    | ask request again next =>
      obtain ⟨fewer, reply, middle, same, answered, continued⟩ := run_ask_eq_some ran
      cases same
      rw [run_ask answered]
      exact ih less continued

theorem Yields.unique {program : Client α} {result other : α} {after later : σ}
    (first : program.Yields ledger state result after)
    (second : program.Yields ledger state other later) : result = other ∧ after = later := by
  obtain ⟨limit, metrics, ran⟩ := first {}
  obtain ⟨limit', metrics', ran'⟩ := second {}
  have long := run_mono (Nat.le_max_left limit limit') ran
  have long' := run_mono (Nat.le_max_right limit limit') ran'
  have same := Option.some.inj (long.symm.trans long')
  exact ⟨congrArg Prod.fst same, congrArg (·.2.2) same⟩

theorem resume_bind {request : LedgerRequest} (again : request.Reply → Bool)
    (rest : request.Reply → Client α) (next : α → Client β) (reply : request.Reply) :
    (resume again rest reply).bind next
      = resume again (fun reply => (rest reply).bind next) reply := by
  unfold resume
  split <;> rfl

theorem run_bind {program : Client α} {next : α → Client β} {limit later : Nat}
    {metrics metrics' : Metrics} {result : α} {ended : β × Metrics × σ}
    (ran : program.run ledger limit metrics state = some (result, metrics', middle))
    (ranLater : (next result).run ledger later metrics' middle = some ended) :
    (program.bind next).run ledger (limit + later) metrics state = some ended := by
  induction limit generalizing program metrics state with
  | zero =>
    cases program with
    | done result =>
      cases ran
      exact run_mono (Nat.le_add_left later 0) ranLater
    | count counter rest => cases ran
    | ask request again rest => cases ran
  | succ limit ih =>
    cases program with
    | done result =>
      cases ran
      exact run_mono (Nat.le_add_left later _) ranLater
    | count counter rest =>
      rw [Nat.add_right_comm]
      have counted : (rest.bind next).run ledger (limit + later) (metrics.bump counter) state
        = some ended := ih ran
      exact counted
    | ask request again rest =>
      obtain ⟨fewer, reply, between, same, answered, continued⟩ := run_ask_eq_some ran
      cases same
      rw [Nat.add_right_comm, bind, run_ask answered, ← resume_bind]
      exact ih continued

theorem Yields.bind {program : Client α} {next : α → Client β} {result : α} {final : β}
    (first : program.Yields ledger state result middle)
    (second : (next result).Yields ledger middle final after) :
    (program.bind next).Yields ledger state final after := by
  intro metrics
  obtain ⟨limit, metrics', ran⟩ := first metrics
  obtain ⟨later, metrics'', ranLater⟩ := second metrics'
  exact ⟨limit + later, metrics'', run_bind ran ranLater⟩

theorem yields_done (result : α) : (done result).Yields ledger state result state :=
  fun metrics => ⟨0, metrics, rfl⟩

theorem yields_count {counter : Counter} {rest : Client α} {result : α}
    (continued : rest.Yields ledger state result after) :
    (count counter rest).Yields ledger state result after := by
  intro metrics
  obtain ⟨limit, metrics', ran⟩ := continued (metrics.bump counter)
  exact ⟨limit + 1, metrics', ran⟩

variable {request : LedgerRequest} {again : request.Reply → Bool}
  {next : request.Reply → Client α} {reply : request.Reply} {result : α}

theorem yields_ask (answered : ledger.answer state request = (some reply, middle))
    (continued : (resume again next reply).Yields ledger middle result after) :
    (ask request again next).Yields ledger state result after := by
  intro metrics
  obtain ⟨limit, metrics', ran⟩ := continued metrics
  exact ⟨limit + 1, metrics', (run_ask answered).trans ran⟩

variable {enough : request.Reply → Bool}

theorem yields_poll (answered : ledger.answer state request = (some reply, after))
    (sufficient : enough reply = true) :
    (poll request enough).Yields ledger state reply after := by
  refine yields_ask answered ?_
  rw [resume, sufficient]
  exact yields_done reply

theorem yields_poll_again {ended : request.Reply}
    (answered : ledger.answer state request = (some reply, middle))
    (insufficient : enough reply = false)
    (continued : (poll request enough).Yields ledger middle ended after) :
    (poll request enough).Yields ledger state ended after := by
  refine yields_ask answered ?_
  rw [resume, insufficient]
  exact continued

/-- The ledger leaves a question of the program without a reply, and itself in a state. -/
inductive Stalls (ledger : Ledger σ) : Client α → σ → σ → Prop
  | count {counter : Counter} {rest : Client α} {state after : σ}
      (continued : Stalls ledger rest state after) : Stalls ledger (.count counter rest) state after
  | silent {request : LedgerRequest} {again : request.Reply → Bool}
      {next : request.Reply → Client α} {state after : σ}
      (unanswered : ledger.answer state request = (none, after)) :
      Stalls ledger (.ask request again next) state after
  | ask {request : LedgerRequest} {again : request.Reply → Bool}
      {next : request.Reply → Client α} {state middle after : σ} {reply : request.Reply}
      (answered : ledger.answer state request = (some reply, middle))
      (continued : Stalls ledger (resume again next reply) middle after) :
      Stalls ledger (.ask request again next) state after

theorem Stalls.run_eq_none {program : Client α} (stalls : program.Stalls ledger state after)
    (limit : Nat) (metrics : Metrics) : program.run ledger limit metrics state = none := by
  induction stalls generalizing limit metrics with
  | count continued ih =>
    cases limit with
    | zero => rfl
    | succ limit => exact ih limit _
  | silent unanswered => exact run_ask_silent unanswered
  | ask answered continued ih =>
    cases limit with
    | zero => rfl
    | succ limit => exact (run_ask answered).trans (ih limit metrics)

theorem Stalls.not_yields {program : Client α} (stalls : program.Stalls ledger state middle) :
    ¬program.Yields ledger state result after := by
  intro yields
  obtain ⟨limit, metrics, ran⟩ := yields {}
  rw [stalls.run_eq_none] at ran
  cases ran

theorem Stalls.bind {program : Client α} (stalls : program.Stalls ledger state after)
    (next : α → Client β) : (program.bind next).Stalls ledger state after := by
  induction stalls with
  | count continued ih => exact .count ih
  | silent unanswered => exact .silent unanswered
  | ask answered continued ih =>
    rw [resume_bind] at ih
    exact .ask answered ih

theorem stalls_of_run {program : Client α} {next : α → Client β} {limit : Nat}
    {metrics metrics' : Metrics}
    (ran : program.run ledger limit metrics state = some (result, metrics', middle))
    (stalls : (next result).Stalls ledger middle after) :
    (program.bind next).Stalls ledger state after := by
  induction limit generalizing program metrics state with
  | zero =>
    cases program with
    | done result =>
      cases ran
      exact stalls
    | count counter rest => cases ran
    | ask request again rest => cases ran
  | succ limit ih =>
    cases program with
    | done result =>
      cases ran
      exact stalls
    | count counter rest =>
      have counted : (rest.bind next).Stalls ledger state after := ih ran
      exact .count counted
    | ask request again rest =>
      obtain ⟨fewer, reply, between, same, answered, continued⟩ := run_ask_eq_some ran
      cases same
      have behind := ih continued
      rw [resume_bind] at behind
      exact .ask answered behind

theorem Yields.bind_stalls {program : Client α} {next : α → Client β}
    (first : program.Yields ledger state result middle)
    (second : (next result).Stalls ledger middle after) :
    (program.bind next).Stalls ledger state after := by
  obtain ⟨limit, metrics, ran⟩ := first {}
  exact stalls_of_run ran second

end Client

namespace ClientM

/-- The program ends with a value or a failure and leaves the ledger in a state. -/
def Yields (ledger : Ledger σ) (program : ClientM α) (state : σ) (result : Except RelayError α)
    (after : σ) : Prop :=
  program.run.Yields ledger state result after

theorem Yields.bind {program : ClientM α} {next : α → ClientM β} {value : α}
    {result : Except RelayError β} (first : program.Yields ledger state (.ok value) middle)
    (second : (next value).Yields ledger middle result after) :
    (program >>= next).Yields ledger state result after :=
  Client.Yields.bind first second

theorem Yields.bind_error {program : ClientM α} {next : α → ClientM β} {error : RelayError}
    (first : program.Yields ledger state (.error error) after) :
    (program >>= next).Yields ledger state (.error error) after :=
  Client.Yields.bind first (Client.yields_done _)

theorem yields_pure (value : α) : (pure value : ClientM α).Yields ledger state (.ok value) state :=
  Client.yields_done _

theorem yields_known (result : Except RelayError α) :
    (known result).Yields ledger state result state :=
  Client.yields_done _

theorem yields_bump_bind {counter : Counter} {next : Unit → ClientM β}
    {result : Except RelayError β} (continued : (next ()).Yields ledger state result after) :
    (bump counter >>= next).Yields ledger state result after :=
  Client.yields_count continued

theorem yields_query {request : LedgerRequest} {reply : request.Reply}
    (answered : ledger.answer state request = (some reply, after)) :
    (query request).Yields ledger state reply after :=
  Client.yields_ask answered (Client.yields_done _)

variable {request : LedgerRequest} {enough : request.Answer → Bool} {answer : request.Answer}

theorem yields_poll (answered : ledger.answer state request = (some (.ok answer), after))
    (sufficient : enough answer = true) :
    (poll request enough).Yields ledger state (.ok answer) after :=
  Client.yields_poll answered sufficient

theorem yields_poll_again {result : Except RelayError request.Answer}
    (answered : ledger.answer state request = (some (.ok answer), middle))
    (insufficient : enough answer = false)
    (continued : (poll request enough).Yields ledger middle result after) :
    (poll request enough).Yields ledger state result after :=
  Client.yields_poll_again answered insufficient continued

/-- The failure of an attempt is its value. -/
theorem Yields.attempt {program : ClientM α} {result : Except RelayError α}
    (inner : program.Yields ledger state result after) :
    (attempt program).Yields ledger state (.ok result) after :=
  Client.Yields.bind inner (Client.yields_done _)

/-- The ledger leaves a question of the program without a reply, and itself in a state. -/
def Stalls (ledger : Ledger σ) (program : ClientM α) (state after : σ) : Prop :=
  program.run.Stalls ledger state after

theorem Stalls.bind {program : ClientM α} (stalls : program.Stalls ledger state after)
    (next : α → ClientM β) : (program >>= next).Stalls ledger state after :=
  Client.Stalls.bind stalls _

theorem Yields.bind_stalls {program : ClientM α} {next : α → ClientM β} {value : α}
    (first : program.Yields ledger state (.ok value) middle)
    (second : (next value).Stalls ledger middle after) :
    (program >>= next).Stalls ledger state after :=
  Client.Yields.bind_stalls first second

theorem stalls_bump_bind {counter : Counter} {next : Unit → ClientM β}
    (continued : (next ()).Stalls ledger state after) :
    (bump counter >>= next).Stalls ledger state after :=
  .count continued

theorem stalls_query {request : LedgerRequest}
    (unanswered : ledger.answer state request = (none, after)) :
    (query request).Stalls ledger state after :=
  .silent unanswered

end ClientM

end GaslessRelay
