import GaslessRelay.Client.Ledger

/-!
What a program of the client does against every ledger of a kind. A protocol remembers the questions
so far, and says which one may come next and what the ledger can reply. A program keeps a protocol
if it asks only what is permitted and ends as stated, whatever the replies are; programs in sequence
keep it if each of them does (`Client.Keeps.bind`, `ClientM.Keeps.bind`).
-/

namespace GaslessRelay

/-- The rules between a program and a ledger, with a memory of what was asked. -/
structure Protocol (μ : Type) where
  permits : μ → LedgerRequest → Prop
  /-- A reply that is possible after a memory, and the memory after it. -/
  replies : μ → (request : LedgerRequest) → request.Reply → μ → Prop

variable {μ α β : Type} {protocol : Protocol μ}

namespace Client

/-- A program asks only what is permitted and ends as stated. A reply after which it asks again must
leave the memory as it was. -/
def Keeps (protocol : Protocol μ) (ends : μ → α → Prop) : Client α → μ → Prop
  | done result, memory => ends memory result
  | count _ rest, memory => rest.Keeps protocol ends memory
  | ask request again next, memory =>
    protocol.permits memory request ∧
      ∀ reply after, protocol.replies memory request reply after →
        if again reply then after = memory else (next reply).Keeps protocol ends after

theorem Keeps.bind {middle : μ → α → Prop} {ends : μ → β → Prop} {program : Client α}
    {next : α → Client β} {memory : μ} (first : program.Keeps protocol middle memory)
    (second : ∀ memory result, middle memory result → (next result).Keeps protocol ends memory) :
    (program.bind next).Keeps protocol ends memory := by
  induction program generalizing memory with
  | done result => exact second memory result first
  | count counter rest ih => exact ih first
  | ask request again rest ih =>
    refine ⟨first.1, ?_⟩
    intro reply after possible
    have continued := first.2 reply after possible
    by_cases repeated : again reply = true
    · rw [if_pos repeated] at continued ⊢
      exact continued
    · rw [if_neg repeated] at continued ⊢
      exact ih reply continued

theorem Keeps.weaken {ends weaker : μ → α → Prop} {program : Client α} {memory : μ}
    (keeps : program.Keeps protocol ends memory)
    (implies : ∀ memory result, ends memory result → weaker memory result) :
    program.Keeps protocol weaker memory := by
  induction program generalizing memory with
  | done result => exact implies memory result keeps
  | count counter rest ih => exact ih keeps
  | ask request again next ih =>
    refine ⟨keeps.1, ?_⟩
    intro reply after possible
    have continued := keeps.2 reply after possible
    by_cases repeated : again reply = true
    · rw [if_pos repeated] at continued ⊢
      exact continued
    · rw [if_neg repeated] at continued ⊢
      exact ih reply continued

end Client

namespace ClientM

variable {ends : μ → α → Prop} {fails : μ → Prop} {memory : μ}

/-- A program that may fail ends as stated for its values, or fails as stated. -/
def Ends (ends : μ → α → Prop) (fails : μ → Prop) (memory : μ) : Except RelayError α → Prop
  | .ok value => ends memory value
  | .error _ => fails memory

/-- A program that may fail keeps a protocol. -/
def Keeps (protocol : Protocol μ) (ends : μ → α → Prop) (fails : μ → Prop) (program : ClientM α)
    (memory : μ) : Prop :=
  program.run.Keeps protocol (Ends ends fails) memory

theorem Keeps.bind {middle : μ → α → Prop} {ends : μ → β → Prop} {program : ClientM α}
    {next : α → ClientM β} (first : program.Keeps protocol middle fails memory)
    (second : ∀ memory value, middle memory value →
      (next value).Keeps protocol ends fails memory) :
    (program >>= next).Keeps protocol ends fails memory := by
  apply Client.Keeps.bind first
  intro memory result outcome
  cases result with
  | ok value => exact second memory value outcome
  | error error => exact outcome

theorem keeps_pure {value : α} (outcome : ends memory value) :
    (pure value : ClientM α).Keeps protocol ends fails memory := outcome

theorem keeps_fail {error : RelayError} (outcome : fails memory) :
    (known (.error error) : ClientM α).Keeps protocol ends fails memory := outcome

theorem keeps_known_bind {result : Except RelayError α} {next : α → ClientM β}
    {ends : μ → β → Prop} (refused : fails memory)
    (rest : ∀ value, result = .ok value → (next value).Keeps protocol ends fails memory) :
    (known result >>= next).Keeps protocol ends fails memory := by
  cases result with
  | ok value => exact rest value rfl
  | error error => exact refused

theorem keeps_bump_bind {counter : Counter} {next : Unit → ClientM β} {ends : μ → β → Prop}
    (rest : (next ()).Keeps protocol ends fails memory) :
    (bump counter >>= next).Keeps protocol ends fails memory := rest

theorem keeps_query {request : LedgerRequest} {ends : μ → request.Answer → Prop}
    (permitted : protocol.permits memory request)
    (answered : ∀ answer after, protocol.replies memory request (.ok answer) after →
      ends after answer)
    (refused : ∀ error after, protocol.replies memory request (.error error) after → fails after) :
    (query request).Keeps protocol ends fails memory := by
  refine ⟨permitted, ?_⟩
  intro reply after possible
  rw [if_neg Bool.false_ne_true]
  cases reply with
  | ok answer => exact answered answer after possible
  | error error => exact refused error after possible

theorem keeps_poll {request : LedgerRequest} {enough : request.Answer → Bool}
    {ends : μ → request.Answer → Prop} (permitted : protocol.permits memory request)
    (unchanged : ∀ answer after, protocol.replies memory request (.ok answer) after →
      enough answer = false → after = memory)
    (answered : ∀ answer after, protocol.replies memory request (.ok answer) after →
      enough answer = true → ends after answer)
    (refused : ∀ error after, protocol.replies memory request (.error error) after → fails after) :
    (poll request enough).Keeps protocol ends fails memory := by
  refine ⟨permitted, ?_⟩
  intro reply after possible
  cases reply with
  | ok answer =>
    by_cases sufficient : enough answer = true
    · rw [if_neg (by simp [sufficient])]
      exact answered answer after possible sufficient
    · rw [if_pos (by simpa using sufficient)]
      exact unchanged answer after possible (by simpa using sufficient)
  | error error =>
    rw [if_neg (by simp)]
    exact refused error after possible

/-- An attempt never fails; its failures are outcomes. -/
theorem Keeps.attempt {broken : μ → Prop} {program : ClientM α}
    (inner : program.Keeps protocol ends broken memory) :
    (attempt program).Keeps protocol (Ends ends broken) fails memory := by
  apply Client.Keeps.bind inner
  intro memory result outcome
  exact outcome

theorem Keeps.weaken {middle : μ → α → Prop} {broken : μ → Prop} {program : ClientM α}
    (inner : program.Keeps protocol middle broken memory)
    (accepted : ∀ memory value, middle memory value → ends memory value)
    (refused : ∀ memory, broken memory → fails memory) :
    program.Keeps protocol ends fails memory := by
  apply Client.Keeps.weaken inner
  intro memory result outcome
  cases result with
  | ok value => exact accepted memory value outcome
  | error error => exact refused memory outcome

end ClientM

end GaslessRelay
