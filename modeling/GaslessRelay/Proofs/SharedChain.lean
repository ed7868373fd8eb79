import GaslessRelay.Client.Relay
import GaslessRelay.Proofs.LedgerRuns
import GaslessRelay.Proofs.RelayTransactions

/-!
Relaying clients that share a chain. A schedule decides who moves next: a client asks its next
question, or something else happens to the chain. Main statement: whatever is done to the chain, it
keeps the entries and the receipts of all transactions (`System.Settled.perform`).
-/

namespace GaslessRelay.Chain

/-- A relay call of a client. -/
structure Job where
  context : RelayContext
  key : String
  sender : Address
  payload : List (String × Json)
  policy : AccountPolicy
  signers : List Signer

/-- A running relay call. -/
abbrev Relaying : Type := Client (Except RelayError Receipt)

def Job.program (job : Job) : Relaying :=
  (job.context.relay job.key job.sender job.payload job.policy job.signers).run

namespace Action

/-- The transaction of an action, if it is one that the chain answers. -/
def transaction? (contracts : Contracts) (chain : State) : Action → Option Transaction
  | .ask (.send target data) =>
    (answer contracts chain (.send target data)).1.map fun _ => ⟨chain, target, data⟩
  | _ => none

variable {contracts : Contracts} {chain after : State} {target : Address} {data : Bytes}

theorem transaction?_eq_none {action : Action}
    (noTransaction : ∀ target data, action ≠ .ask (.send target data)) :
    action.transaction? contracts chain = none := by
  unfold transaction?
  split
  · exact absurd rfl (noTransaction _ _)
  · rfl

theorem transaction?_of_answered {reply : Except RelayError Hash}
    (answered : answer contracts chain (.send target data) = (some reply, after)) :
    (ask (.send target data)).transaction? contracts chain = some ⟨chain, target, data⟩ := by
  rw [transaction?, answered]
  rfl

theorem transaction?_of_unanswered
    (unanswered : answer contracts chain (.send target data) = (none, after)) :
    (ask (.send target data)).transaction? contracts chain = none := by
  rw [transaction?, unanswered]
  rfl

end Action

/-- A chain, the clients that share it, and the transactions so far. Those of the clients carry the
client's number. -/
structure System where
  chain : State
  programs : List Relaying
  sent : List (Option Nat × Transaction) := []

/-- Who moves: a client, or anything else that happens to the chain. -/
inductive Turn where
  | client (index : Nat)
  | other (action : Action)

namespace System

/-- The transactions of a sender. -/
def sentBy (system : System) (sender : Option Nat) : List Transaction :=
  (system.sent.filter (·.1 = sender)).map (·.2)

/-- An action on the chain. -/
def perform (contracts : Contracts) (system : System) (sender : Option Nat) (action : Action) :
    System :=
  { system with
    chain := act contracts system.chain action
    sent := system.sent ++ (action.transaction? contracts system.chain).toList.map (sender, ·) }

/-- One turn. A client that is done stays so, and one that asks again or gets no reply keeps its
question. -/
def step (contracts : Contracts) (system : System) : Turn → System
  | .other action => system.perform contracts none action
  | .client index =>
    match system.programs[index]? with
    | some (.count _ rest) => { system with programs := system.programs.set index rest }
    | some (.ask request again next) =>
      let performed := system.perform contracts (some index) (.ask request)
      match (answer contracts system.chain request).1 with
      | some reply =>
        { performed with programs := system.programs.set index (.resume again next reply) }
      | none => performed
    | some (.done _) | none => system

/-- The system after a schedule. -/
def run (contracts : Contracts) (system : System) (schedule : List Turn) : System :=
  schedule.foldl (step contracts) system

/-- The system in which no client has moved yet. -/
def start (chain : State) (jobs : List Job) : System := ⟨chain, jobs.map Job.program, []⟩

/-- No two different seeds of transaction hashes have the same digest. -/
def HashesDiffer (system : System) : Prop :=
  ∀ first ∈ system.sent, ∀ second ∈ system.sent,
    first.2.hash = second.2.hash → first.2.seed = second.2.seed

variable {contracts : Contracts} {system : System}

theorem sentBy_perform (contracts : Contracts) (system : System) (sender other : Option Nat)
    (action : Action) :
    (system.perform contracts sender action).sentBy other
      = system.sentBy other
        ++ if sender = other then (action.transaction? contracts system.chain).toList else [] := by
  unfold perform sentBy
  rw [List.filter_append, List.map_append]
  by_cases same : sender = other
  · simp [same, List.filter_map, Function.comp_def]
  · simp [same, List.filter_map, Function.comp_def]

theorem HashesDiffer.of_prefix {first second : System} {more : List (Option Nat × Transaction)}
    (differ : second.HashesDiffer) (extended : second.sent = first.sent ++ more) :
    first.HashesDiffer := by
  intro entry member other memberOther same
  have within : ∀ {entry}, entry ∈ first.sent → entry ∈ second.sent := by
    intro entry member
    rw [extended]
    exact List.mem_append_left more member
  exact differ entry (within member) other (within memberOther) same

/-- The chain of a system remembers its transactions: their blocks are different ones, their entries
are in the log, and their receipts tell whether they succeeded. -/
structure Settled (contracts : Contracts) (initial : State) (turns : Nat) (system : System) :
    Prop where
  blocks : ∃ made ≤ turns, system.chain.block = initial.block + UInt64.ofNat made
    ∧ ∀ entry ∈ system.sent, ∃ number < made,
      entry.2.chain.block = initial.block + UInt64.ofNat number
  logged : system.chain.executed
    = initial.executed ++ system.sent.flatMap (·.2.entries contracts)
  receipts : ∀ entry ∈ system.sent, ∃ receipt,
    system.chain.receipts.get? entry.2.hash = some receipt
      ∧ receipt.success = entry.2.succeeds contracts

theorem block_succ (block : UInt64) (made : Nat) :
    block + UInt64.ofNat made + 1 = block + UInt64.ofNat (made + 1) := by
  rw [UInt64.ofNat_add, UInt64.add_assoc]
  rfl

theorem block_injective {block : UInt64} {first second : Nat} (firstSmall : first < UInt64.size)
    (secondSmall : second < UInt64.size)
    (same : block + UInt64.ofNat first = block + UInt64.ofNat second) : first = second := by
  have numbers := congrArg UInt64.toNat (UInt64.add_right_inj block |>.1 same)
  rw [UInt64.toNat_ofNat_of_lt' firstSmall, UInt64.toNat_ofNat_of_lt' secondSmall] at numbers
  exact numbers

/-- Transactions of different blocks have different seeds. -/
theorem block_eq_of_seed {first second : Transaction} (same : first.seed = second.seed) :
    first.chain.block = second.chain.block := by
  have numbers := congrArg (fun seed => Bytes.toNat (seed.take 8)) same
  unfold Transaction.seed at numbers
  simp only [List.take_left' (Bytes.length_ofNat _ _), Bytes.toNat_ofNat] at numbers
  have small : ∀ block : UInt64, block.toNat % Nat.pow 256 8 = block.toNat := by
    intro block
    exact Nat.mod_eq_of_lt block.toNat_lt
  rw [small, small] at numbers
  exact (UInt64.add_left_inj 1).1 (UInt64.toNat_inj.1 numbers)

theorem Settled.waits {initial : State} {turns : Nat}
    (settled : Settled contracts initial turns system) :
    Settled contracts initial (turns + 1) system := by
  obtain ⟨made, within, height, below⟩ := settled.blocks
  exact ⟨⟨made, by omega, height, below⟩, settled.logged, settled.receipts⟩

theorem Settled.quiet {initial : State} {turns : Nat} {sender : Option Nat} {action : Action}
    (settled : Settled contracts initial turns system)
    (quiet : Quiet system.chain (act contracts system.chain action))
    (noTransaction : action.transaction? contracts system.chain = none) :
    Settled contracts initial (turns + 1) (system.perform contracts sender action) := by
  obtain ⟨made, within, height, below⟩ := settled.blocks
  have sent : (system.perform contracts sender action).sent = system.sent := by
    simp [perform, noTransaction]
  refine ⟨?_, ?_, ?_⟩
  · rw [sent]
    rcases quiet.block with same | next
    · exact ⟨made, by omega, same.trans height, below⟩
    · refine ⟨made + 1, by omega, ?_, ?_⟩
      · rw [← block_succ, ← height]
        exact next
      · intro entry member
        obtain ⟨number, earlier, atNumber⟩ := below entry member
        exact ⟨number, by omega, atNumber⟩
  · rw [sent]
    exact quiet.executed.trans settled.logged
  · rw [sent]
    intro entry member
    obtain ⟨receipt, found, success⟩ := settled.receipts entry member
    refine ⟨receipt, ?_, success⟩
    rw [← found]
    exact congrArg (·.get? entry.2.hash) quiet.receipts

theorem sent_of_answered {target : Address} {data : Bytes} {reply : Except RelayError Hash}
    {after : State}
    (answered : answer contracts system.chain (.send target data) = (some reply, after))
    (sender : Option Nat) :
    (system.perform contracts sender (.ask (.send target data))).sent
      = system.sent ++ [(sender, ⟨system.chain, target, data⟩)] := by
  unfold perform
  rw [Action.transaction?_of_answered answered]
  rfl

/-- A transaction of the present block is none of the earlier ones, and neither is its hash. -/
theorem Settled.hash_ne {initial : State} {turns : Nat} {sender : Option Nat} {target : Address}
    {data : Bytes} (settled : Settled contracts initial turns system)
    {reply : Except RelayError Hash} {after : State}
    (answered : answer contracts system.chain (.send target data) = (some reply, after))
    (short : turns < UInt64.size)
    (differ : (system.perform contracts sender (.ask (.send target data))).HashesDiffer) :
    ∀ entry ∈ system.sent, Transaction.hash ⟨system.chain, target, data⟩ ≠ entry.2.hash := by
  obtain ⟨made, within, height, below⟩ := settled.blocks
  unfold HashesDiffer at differ
  rw [sent_of_answered answered] at differ
  intro entry member same
  have seeds := differ _ (List.mem_append_right _ List.mem_cons_self) entry
    (List.mem_append_left _ member) same
  have blocks := block_eq_of_seed seeds
  -- Equal seeds would put the transaction into the block of an earlier one.
  obtain ⟨number, earlier, atNumber⟩ := below entry member
  rw [atNumber] at blocks
  have equal := block_injective (by omega) (by omega) (height.symm.trans blocks)
  omega

theorem Settled.transaction {initial : State} {turns : Nat} {sender : Option Nat}
    {target : Address} {data : Bytes} (settled : Settled contracts initial turns system)
    (short : turns < UInt64.size)
    (differ : (system.perform contracts sender (.ask (.send target data))).HashesDiffer) :
    Settled contracts initial (turns + 1)
      (system.perform contracts sender (.ask (.send target data))) := by
  rcases Transaction.answer_eq contracts ⟨system.chain, target, data⟩ with
    ⟨after, answered, block, receipts, executed⟩ | ⟨after, unanswered, quiet⟩
  rotate_left
  · refine settled.quiet ?_ (Action.transaction?_of_unanswered unanswered)
    rw [act, unanswered]
    exact quiet
  dsimp only at answered block receipts executed
  have fresh := settled.hash_ne answered short differ
  obtain ⟨made, within, height, below⟩ := settled.blocks
  have chain : (system.perform contracts sender (.ask (.send target data))).chain
      = after.withReceipt (Transaction.hash ⟨system.chain, target, data⟩) system.chain.mined.block
          (Transaction.succeeds contracts ⟨system.chain, target, data⟩) := by
    rw [perform, act, answered]
  have sent := sent_of_answered answered sender
  refine ⟨⟨made + 1, by omega, ?_, ?_⟩, ?_, ?_⟩
  · rw [chain, ← block_succ, ← height]
    exact block
  · rw [sent]
    intro entry member
    rcases List.mem_append.1 member with earlier | last
    · obtain ⟨number, less, atNumber⟩ := below entry earlier
      exact ⟨number, by omega, atNumber⟩
    · rw [List.mem_singleton.1 last]
      exact ⟨made, by omega, height⟩
  · rw [chain, sent, List.flatMap_append, ← List.append_assoc, ← settled.logged,
      List.flatMap_singleton]
    exact executed
  · rw [chain, sent]
    intro entry member
    unfold State.withReceipt
    dsimp only
    rw [Table.get?_insert, receipts]
    rcases List.mem_append.1 member with earlier | last
    · rw [if_neg (fresh entry earlier)]
      exact settled.receipts entry earlier
    · rw [List.mem_singleton.1 last, if_pos rfl]
      exact ⟨_, rfl, rfl⟩

theorem Settled.perform {initial : State} {turns : Nat} {sender : Option Nat} {action : Action}
    (settled : Settled contracts initial turns system) (short : turns < UInt64.size)
    (differ : (system.perform contracts sender action).HashesDiffer) :
    Settled contracts initial (turns + 1) (system.perform contracts sender action) := by
  by_cases transaction : ∃ target data, action = .ask (.send target data)
  · obtain ⟨target, data, rfl⟩ := transaction
    exact settled.transaction short differ
  · have noTransaction : ∀ target data, action ≠ .ask (.send target data) :=
      fun target data same => transaction ⟨target, data, same⟩
    exact settled.quiet (act_quiet noTransaction) (Action.transaction?_eq_none noTransaction)

theorem sent_step (contracts : Contracts) (system : System) (turn : Turn) :
    ∃ more, (system.step contracts turn).sent = system.sent ++ more := by
  cases turn with
  | other action => exact ⟨_, rfl⟩
  | client index =>
    unfold step
    dsimp only
    split
    · exact ⟨[], (List.append_nil _).symm⟩
    · split <;> exact ⟨_, rfl⟩
    · exact ⟨[], (List.append_nil _).symm⟩
    · exact ⟨[], (List.append_nil _).symm⟩

theorem run_append_singleton (system : System) (schedule : List Turn) (turn : Turn) :
    system.run contracts (schedule ++ [turn])
      = (system.run contracts schedule).step contracts turn := by
  unfold run
  rw [List.foldl_append]
  rfl

/-- A client that is alone moves as it does when it is run against the chain. -/
theorem run_alone {program : Relaying} {limit : Nat} {metrics metrics' : Metrics}
    {chain chain' : State} {result : Except RelayError Receipt}
    (sent : List (Option Nat × Transaction))
    (ran : program.run (ledger contracts) limit metrics chain = some (result, metrics', chain')) :
    ∃ turns ≤ limit, ∃ more, run contracts ⟨chain, [program], sent⟩ (.replicate turns (.client 0))
      = ⟨chain', [.done result], sent ++ more⟩ := by
  induction limit generalizing program metrics chain sent with
  | zero =>
    cases program with
    | done result =>
      cases ran
      exact ⟨0, by omega, [], by rw [List.append_nil]; rfl⟩
    | count counter rest => cases ran
    | ask request again next => cases ran
  | succ limit ih =>
    cases program with
    | done result =>
      cases ran
      exact ⟨0, by omega, [], by rw [List.append_nil]; rfl⟩
    | count counter rest =>
      obtain ⟨turns, within, more, ends⟩ := ih sent ran
      exact ⟨turns + 1, by omega, more, ends⟩
    | ask request again next =>
      obtain ⟨fewer, reply, middle, same, answered, continued⟩ := Client.run_ask_eq_some ran
      cases same
      have replied : answer contracts chain request = (some reply, middle) := answered
      let now := ((Action.ask request).transaction? contracts chain).toList.map (some 0, ·)
      obtain ⟨turns, within, more, ends⟩ := ih (sent ++ now) continued
      have moved : step contracts ⟨chain, [.ask request again next], sent⟩ (.client 0)
          = ⟨middle, [.resume again next reply], sent ++ now⟩ := by
        simp only [step, List.getElem?_cons_zero, replied, perform, act, List.set_cons_zero, now]
      refine ⟨turns + 1, by omega, now ++ more, ?_⟩
      rw [← List.append_assoc, ← ends, ← moved]
      rfl

end System

end GaslessRelay.Chain
