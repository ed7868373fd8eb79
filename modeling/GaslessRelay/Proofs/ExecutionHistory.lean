import GaslessRelay.Chain.Transactions
import GaslessRelay.Proofs.CatalogEntries
import GaslessRelay.Proofs.ChainExecution

/-!
What the chain executed in a whole run, whatever transactions, calls and changes of its settings
made it up. Main statement: counters, log and authority stay in step
(`executed_once_with_authority`).
-/

namespace GaslessRelay

theorem RelayCall.sole_signature {data : Bytes} {call : RelayCall}
    (spelled : RelayCall.decode data = .ok call) (path : call.thresholdPath = false) :
    ∃ signature, call.signatures = [signature] := by
  unfold RelayCall.decode at spelled
  split at spelled
  · cases spelled
  · split at spelled
    · cases spelled
    · rename_i thresholdPath _
      obtain ⟨request, -, spelled⟩ := Outcome.bind_eq_ok.1 spelled
      obtain ⟨signatures, read, spelled⟩ := Outcome.bind_eq_ok.1 spelled
      cases spelled
      dsimp only at path
      subst path
      obtain ⟨offset, -, read⟩ := Outcome.bind_eq_ok.1 read
      obtain ⟨signature, -, read⟩ := Outcome.bind_eq_ok.1 read
      cases read
      exact ⟨signature, rfl⟩

namespace Chain

open Outcome

/-- What stood behind an executed relay call: a registered type of the catalog, the sender's live
counter, and signatures under the domain of the chain. -/
structure Execution.Authorised (contracts : Contracts) (execution : Execution) : Prop where
  registered : execution.before.registered.contains execution.call.request.typeHash = true
  catalogued : contracts.catalog.get? execution.operation.key = some execution.operation
  typed : execution.operation.typeHash = execution.call.request.typeHash
  live : execution.nonce.toNat = (execution.before.nonce execution.sender).toNat
  signed : ∃ structHash, execution.call.request.structHash execution.operation = .ok structHash
    ∧ Authorises execution.before execution.call
        (TypedData.signingDigest contracts.domain.separator structHash)

/-- How many entries of the log are of a sender. -/
def State.executions (state : State) (sender : Address) : Nat :=
  state.executed.countP (·.2 = sender)

theorem State.executions_relayed (state : State) (key : String) (sender other : Address) :
    (state.relayed key sender).executions other
      = state.executions other + if sender = other then 1 else 0 := by
  unfold State.executions State.relayed
  rw [List.countP_append, List.countP_singleton]
  simp

theorem State.toNat_nonce_relayed {state : State} {key : String} {sender : Address}
    (few : (state.nonce sender).toNat + 1 < UInt64.size) (other : Address) :
    ((state.relayed key sender).nonce other).toNat
      = (state.nonce other).toNat + if sender = other then 1 else 0 := by
  unfold State.relayed State.nonce
  rw [Table.get?_insert]
  by_cases own : sender = other
  · subst own
    rw [if_pos rfl, if_pos rfl, Option.getD_some, UInt64.toNat_add]
    exact Nat.mod_eq_of_lt few
  · rw [if_neg own, if_neg own, Nat.add_zero]

/-- The counters, the log and the relay calls of a history are in step. -/
structure Consistent (contracts : Contracts) (history : List Execution) (state : State) :
    Prop where
  logged : state.executed = history.map Execution.entry
  counted : ∀ sender, (state.nonce sender).toNat = state.executions sender
  spent : ∀ execution ∈ history, execution.nonce.toNat < (state.nonce execution.sender).toNat
  distinct : (history.map fun execution => (execution.sender, execution.nonce)).Nodup
  authorised : ∀ execution ∈ history, execution.Authorised contracts

namespace Consistent

variable {contracts : Contracts} {history later : List Execution} {state next after : State}

theorem initial : Consistent contracts [] {} where
  logged := rfl
  counted _ := rfl
  spent := by simp
  distinct := .nil
  authorised := by simp

/-- Only the counters and the log matter. -/
theorem of_same (consistent : Consistent contracts history state)
    (nonces : next.nonces = state.nonces) (executed : next.executed = state.executed) :
    Consistent contracts history next := by
  have sameNonce : next.nonce = state.nonce := by
    funext sender
    unfold State.nonce
    rw [nonces]
  have sameExecutions : next.executions = state.executions := by
    funext sender
    unfold State.executions
    rw [executed]
  exact {
    logged := executed.trans consistent.logged
    counted := by rw [sameNonce, sameExecutions]; exact consistent.counted
    spent := by rw [sameNonce]; exact consistent.spent
    distinct := consistent.distinct
    authorised := consistent.authorised }

theorem nonce_lt_size (consistent : Consistent contracts history state)
    (few : state.executed.length + 1 < UInt64.size) (sender : Address) :
    (state.nonce sender).toNat + 1 < UInt64.size := by
  have counted := consistent.counted sender
  have atMost : state.executions sender ≤ state.executed.length := List.countP_le_length
  omega

/-- No earlier relay call of a sender had the number that is live now. -/
theorem fresh (consistent : Consistent contracts history state) {execution : Execution}
    (live : execution.nonce.toNat = (state.nonce execution.sender).toNat) :
    (execution.sender, execution.nonce)
      ∉ history.map fun execution => (execution.sender, execution.nonce) := by
  intro used
  obtain ⟨earlier, member, same⟩ := List.mem_map.1 used
  obtain ⟨sameSender, sameNonce⟩ := Prod.mk.inj same
  have spent := consistent.spent earlier member
  rw [sameSender, sameNonce] at spent
  omega

/-- A relay call moves the counter of its sender past its own number, which no earlier one had. -/
theorem relayed {call : RelayCall} {operation : OperationType}
    (keys : (contracts.catalog.entries.map (·.key)).Nodup)
    (consistent : Consistent contracts history state)
    (sole : call.thresholdPath = false → ∃ signature, call.signatures = [signature])
    (known : contracts.catalog.byTypeHash? call.request.typeHash = some operation)
    (accepted : executeRelay contracts state call = .ok next)
    (few : next.executed.length < UInt64.size) :
    Consistent contracts (history ++ [⟨state, call, operation⟩]) next := by
  obtain ⟨other, structHash, registered, found, hashed, live, signed, changed⟩ :=
    executeRelay_eq_ok accepted
  have same : other = operation := by
    rw [known] at found
    exact (Option.some.inj found).symm
  subst same
  obtain ⟨catalogued, typed⟩ := Catalog.mem_of_byTypeHash? known
  subst changed
  rw [State.relayed, List.length_append, List.length_singleton] at few
  have bounded := consistent.nonce_lt_size few call.request.sender
  have nonceOf := @State.toNat_nonce_relayed state other.key _ bounded
  exact {
    logged := by
      rw [State.relayed, consistent.logged, List.map_append]
      rfl
    counted := by
      intro sender
      rw [nonceOf, State.executions_relayed, consistent.counted sender]
    spent := by
      intro execution member
      rw [nonceOf]
      rcases List.mem_append.1 member with earlier | last
      · have spent := consistent.spent execution earlier
        omega
      · rw [List.mem_singleton.1 last]
        simp [Execution.nonce, Execution.sender, live]
    distinct := by
      have unused := @fresh _ _ _ consistent ⟨state, call, other⟩ live
      rw [List.map_append, List.map_singleton]
      refine List.nodup_append.2 ⟨consistent.distinct, by simp, ?_⟩
      intro used inHistory last isLast equal
      rw [equal, List.mem_singleton.1 isLast] at inHistory
      exact unused inHistory
    authorised := by
      intro execution member
      rcases List.mem_append.1 member with earlier | last
      · exact consistent.authorised execution earlier
      · rw [List.mem_singleton.1 last]
        exact ⟨registered, Catalog.get?_eq_some_of_mem keys catalogued, typed, live, structHash,
          hashed, authorises_of_checkSignatures sole signed⟩ }

/-- Messages that are executed append their relay calls to the history. -/
theorem executed {messages : List Message}
    (keys : (contracts.catalog.entries.map (·.key)).Nodup)
    (run : Executes contracts state messages later after)
    (consistent : Consistent contracts history state)
    (few : after.executed.length < UInt64.size) :
    Consistent contracts (history ++ later) after := by
  induction run generalizing history with
  | done state =>
    rw [List.append_nil]
    exact consistent
  | @relayed state next after sender data call operation rest later spelled known accepted run ih =>
    -- The log only grows, so the bound on the last one holds for this one.
    have fewNow : next.executed.length < UInt64.size := by
      rw [run.executed_eq, List.length_append] at few
      omega
    have stepped := consistent.relayed keys (RelayCall.sole_signature spelled) known accepted fewNow
    rw [List.append_cons]
    exact ih stepped few
  | owned split accepted _ ih =>
    obtain ⟨_, _, rfl⟩ := executeOwned_eq_ok accepted
    exact ih (consistent.of_same rfl rfl) few
  | proposed split named held _ ih => exact ih consistent few

end Consistent

/-- Something that happens to the chain: a question of anyone, or a change from outside of who owns
an account, whether the modules fail, and how many reads lag behind. -/
inductive Action where
  | ask (request : LedgerRequest)
  | setOwnerSet (account : Address) (owners : List Address) (threshold : UInt64)
  | setModuleRevert (reason : Option String)
  | lagReads (count : Nat)

/-- The chain after an action. -/
def act (contracts : Contracts) (state : State) : Action → State
  | .ask request => (answer contracts state request).2
  | .setOwnerSet account owners threshold =>
    state.update fun state => state.setOwnerSet account owners threshold
  | .setModuleRevert reason => state.update fun state => { state with moduleRevert := reason }
  | .lagReads count => state.update fun state => { state with staleReads := count }

/-- The relay calls that an action makes: those of a transaction that succeeds, and none else. -/
inductive Acts (contracts : Contracts) (state : State) : Action → List Execution → Prop where
  | succeeded {target : Address} {data : Bytes} {history : List Execution} {after : State}
      (unlocked : state.poisoned = false)
      (accepted : execute contracts state.mined relayerAccount target data = .ok after)
      (made : Executes contracts state.mined [⟨relayerAccount, target, data⟩] history after) :
      Acts contracts state (.ask (.send target data)) history
  | failed {target : Address} {data : Bytes} {halt : Halt}
      (halted : execute contracts state.mined relayerAccount target data = .error halt) :
      Acts contracts state (.ask (.send target data)) []
  | locked {action : Action} (poisoned : state.poisoned = true) : Acts contracts state action []
  | quiet {action : Action} (noTransaction : ∀ target data, action ≠ .ask (.send target data)) :
      Acts contracts state action []

/-- The relay calls that actions make one after the other. -/
inductive History (contracts : Contracts) : State → List Action → List Execution → Prop where
  | nil (state : State) : History contracts state [] []
  | cons {state : State} {action : Action} {rest : List Action} {first later : List Execution}
      (now : Acts contracts state action first)
      (next : History contracts (act contracts state action) rest later) :
      History contracts state (action :: rest) (first ++ later)

/-- The chain after actions. -/
def runFrom (contracts : Contracts) (state : State) (actions : List Action) : State :=
  actions.foldl (act contracts) state

variable {contracts : Contracts} {state after : State} {history later : List Execution}

theorem view?_eq_some {target : Address} {data answer : Bytes}
    (answered : view? contracts state target data = some (answer, after)) :
    ∃ reads, after = { state with staleReads := reads } := by
  unfold view? at answered
  obtain ⟨⟨selector, arguments⟩, -, answered⟩ := Option.bind_eq_some_iff.1 answered
  dsimp only at answered
  split at answered
  · obtain ⟨sender, -, answered⟩ := Option.bind_eq_some_iff.1 answered
    split at answered
    · cases answered
      exact ⟨_, rfl⟩
    · cases answered
      exact ⟨_, rfl⟩
  · split at answered
    · cases answered
      exact ⟨_, rfl⟩
    · split at answered
      · cases answered
        exact ⟨_, rfl⟩
      · cases answered

/-- A call changes nothing but how many reads still lag behind, unless it crashes the chain. -/
theorem call_snd (contracts : Contracts) (state : State) (target : Address) (data : Bytes) :
    ∃ reads poisoned, (call contracts state target data).2
      = { state with staleReads := reads, poisoned := poisoned } := by
  unfold call
  split
  · rename_i answered
    obtain ⟨reads, rfl⟩ := view?_eq_some answered
    exact ⟨reads, _, rfl⟩
  · split
    · exact ⟨_, _, rfl⟩
    · exact ⟨_, _, rfl⟩
    · exact ⟨_, _, rfl⟩

theorem State.locked_of_poisoned {α : Type} (poisoned : state.poisoned = true)
    (run : State → Option α × State) : state.locked run = (none, state) :=
  if_pos poisoned

theorem State.locked_of_unlocked {α : Type} (unlocked : state.poisoned = false)
    (run : State → Option α × State) : state.locked run = run state := by
  rw [State.locked, unlocked]
  exact if_neg Bool.false_ne_true

theorem answer_call (unlocked : state.poisoned = false) (target : Address) (data : Bytes) :
    answer contracts state (.call target data) = call contracts state target data := by
  rw [answer, State.locked_of_unlocked unlocked]

theorem answer_send (unlocked : state.poisoned = false) (target : Address) (data : Bytes) :
    answer contracts state (.send target data)
      = ((send contracts state target data).1.map .ok, (send contracts state target data).2) := by
  rw [answer, State.locked_of_unlocked unlocked]

theorem answer_receipt (unlocked : state.poisoned = false) (transaction : Hash) :
    answer contracts state (.receipt transaction)
      = (some (.ok (state.receipts.get? transaction)), state) := by
  rw [answer, State.locked_of_unlocked unlocked]

theorem answer_blockNumber (unlocked : state.poisoned = false) :
    answer contracts state .blockNumber
      = (some (.ok (state.block + 1)), { state with block := state.block + 1 }) := by
  rw [answer, State.locked_of_unlocked unlocked]

/-- The lock of the chain is needed for all replies but one. -/
theorem answer_of_poisoned (poisoned : state.poisoned = true) {request : LedgerRequest}
    (needed : request ≠ .chainId) : answer contracts state request = (none, state) := by
  cases request with
  | call | send | receipt | blockNumber => rw [answer, State.locked_of_poisoned poisoned]
  | chainId => exact absurd rfl needed

theorem unlocked_of_answered {request : LedgerRequest} {reply : request.Reply}
    (needed : request ≠ .chainId) (answered : (answer contracts state request).1 = some reply) :
    state.poisoned = false := by
  cases unlocked : state.poisoned with
  | false => rfl
  | true =>
    rw [answer_of_poisoned unlocked needed] at answered
    cases answered

theorem State.update_of_poisoned (poisoned : state.poisoned = true) (change : State → State) :
    state.update change = state := by
  rw [State.update, State.locked_of_poisoned poisoned]

theorem State.update_of_unlocked (unlocked : state.poisoned = false) (change : State → State) :
    state.update change = change state := by
  rw [State.update, State.locked_of_unlocked unlocked]

/-- A chain whose lock is poisoned stays as it is. -/
theorem act_of_poisoned (poisoned : state.poisoned = true) (action : Action) :
    act contracts state action = state := by
  cases action with
  | ask request =>
    by_cases number : request = .chainId
    · rw [number]
      rfl
    · rw [act, answer_of_poisoned poisoned number]
  | setOwnerSet account owners threshold => exact State.update_of_poisoned poisoned _
  | setModuleRevert reason => exact State.update_of_poisoned poisoned _
  | lagReads count => exact State.update_of_poisoned poisoned _

/-- No counter, no log and no receipt changes from one state to another, and at most one block is
made. -/
structure Quiet (state after : State) : Prop where
  nonces : after.nonces = state.nonces
  executed : after.executed = state.executed
  receipts : after.receipts = state.receipts
  block : after.block = state.block ∨ after.block = state.block + 1

theorem act_quiet {action : Action}
    (noTransaction : ∀ target data, action ≠ .ask (.send target data)) :
    Quiet state (act contracts state action) := by
  cases unlocked : state.poisoned with
  | true =>
    rw [act_of_poisoned unlocked]
    exact ⟨rfl, rfl, rfl, .inl rfl⟩
  | false =>
    cases action with
    | ask request =>
      cases request with
      | call target data =>
        obtain ⟨reads, poisoned, changed⟩ := call_snd contracts state target data
        rw [act, answer_call unlocked, changed]
        exact ⟨rfl, rfl, rfl, .inl rfl⟩
      | send target data => exact absurd rfl (noTransaction target data)
      | receipt transaction =>
        rw [act, answer_receipt unlocked]
        exact ⟨rfl, rfl, rfl, .inl rfl⟩
      | blockNumber =>
        rw [act, answer_blockNumber unlocked]
        exact ⟨rfl, rfl, rfl, .inr rfl⟩
      | chainId => exact ⟨rfl, rfl, rfl, .inl rfl⟩
    | setOwnerSet account owners threshold =>
      rw [act, State.update_of_unlocked unlocked]
      exact ⟨rfl, rfl, rfl, .inl rfl⟩
    | setModuleRevert reason =>
      rw [act, State.update_of_unlocked unlocked]
      exact ⟨rfl, rfl, rfl, .inl rfl⟩
    | lagReads count =>
      rw [act, State.update_of_unlocked unlocked]
      exact ⟨rfl, rfl, rfl, .inl rfl⟩

theorem send_of_ok {target : Address} {data : Bytes}
    (accepted : execute contracts state.mined relayerAccount target data = .ok after) :
    send contracts state target data
      = (some (transactionHash state.mined.block data),
        after.withReceipt (transactionHash state.mined.block data) state.mined.block true) := by
  simp only [send, accepted]

theorem send_of_reverted {target : Address} {data : Bytes} {revert : Revert}
    (refused : execute contracts state.mined relayerAccount target data
      = .error (.reverted revert)) :
    send contracts state target data
      = (some (transactionHash state.mined.block data),
        state.mined.withReceipt (transactionHash state.mined.block data) state.mined.block
          false) := by
  simp only [send, refused]

theorem send_of_crashed {target : Address} {data : Bytes}
    (crashed : execute contracts state.mined relayerAccount target data = .error .crashed) :
    send contracts state target data = (none, state.mined.poison) := by
  simp only [send, crashed]

theorem act_send (unlocked : state.poisoned = false) (target : Address) (data : Bytes) :
    act contracts state (.ask (.send target data)) = (send contracts state target data).2 := by
  rw [act, answer_send unlocked]

theorem act_succeeded {target : Address} {data : Bytes} (unlocked : state.poisoned = false)
    (accepted : execute contracts state.mined relayerAccount target data = .ok after) :
    (act contracts state (.ask (.send target data))).nonces = after.nonces
      ∧ (act contracts state (.ask (.send target data))).executed = after.executed := by
  rw [act_send unlocked, send_of_ok accepted]
  exact ⟨rfl, rfl⟩

theorem act_failed {target : Address} {data : Bytes} {halt : Halt}
    (halted : execute contracts state.mined relayerAccount target data = .error halt) :
    (act contracts state (.ask (.send target data))).nonces = state.nonces
      ∧ (act contracts state (.ask (.send target data))).executed = state.executed := by
  cases unlocked : state.poisoned with
  | true => rw [act_of_poisoned unlocked]; exact ⟨rfl, rfl⟩
  | false =>
    rw [act_send unlocked]
    cases halt with
    | reverted revert => rw [send_of_reverted halted]; exact ⟨rfl, rfl⟩
    | crashed => rw [send_of_crashed halted]; exact ⟨rfl, rfl⟩

theorem Acts.executed_eq {action : Action} (acts : Acts contracts state action history) :
    (act contracts state action).executed = state.executed ++ history.map Execution.entry := by
  cases acts with
  | succeeded unlocked accepted made =>
    rw [(act_succeeded unlocked accepted).2, made.executed_eq]
    rfl
  | failed halted => simp [(act_failed halted).2]
  | locked poisoned => simp [act_of_poisoned poisoned]
  | quiet noTransaction => simp [(act_quiet noTransaction).executed]

theorem acts_exists (contracts : Contracts) (state : State) (action : Action) :
    ∃ history, Acts contracts state action history := by
  by_cases transaction : ∃ target data, action = .ask (.send target data)
  · obtain ⟨target, data, rfl⟩ := transaction
    cases unlocked : state.poisoned with
    | true => exact ⟨[], .locked unlocked⟩
    | false =>
      cases outcome : execute contracts state.mined relayerAccount target data with
      | ok after =>
        obtain ⟨history, made⟩ := executes_of_execute outcome
        exact ⟨history, .succeeded unlocked outcome made⟩
      | error halt => exact ⟨[], .failed outcome⟩
  · refine ⟨[], .quiet ?_⟩
    intro target data same
    exact transaction ⟨target, data, same⟩

theorem history_exists (contracts : Contracts) (state : State) (actions : List Action) :
    ∃ history, History contracts state actions history := by
  induction actions generalizing state with
  | nil => exact ⟨[], .nil state⟩
  | cons action rest ih =>
    obtain ⟨first, now⟩ := acts_exists contracts state action
    obtain ⟨later, next⟩ := ih (act contracts state action)
    exact ⟨first ++ later, .cons now next⟩

theorem History.executed_eq {actions : List Action}
    (run : History contracts state actions history) :
    (runFrom contracts state actions).executed
      = state.executed ++ history.map Execution.entry := by
  induction run with
  | nil state => simp [runFrom]
  | cons now next ih =>
    unfold runFrom at ih ⊢
    rw [List.foldl_cons, ih, now.executed_eq, List.map_append, List.append_assoc]

theorem Consistent.act {action : Action}
    (keys : (contracts.catalog.entries.map (·.key)).Nodup)
    (acts : Acts contracts state action later) (consistent : Consistent contracts history state)
    (few : (act contracts state action).executed.length < UInt64.size) :
    Consistent contracts (history ++ later) (act contracts state action) := by
  cases acts with
  | succeeded unlocked accepted made =>
    obtain ⟨nonces, executed⟩ := act_succeeded unlocked accepted
    rw [executed] at few
    have mined : Consistent contracts history state.mined := consistent.of_same rfl rfl
    exact (mined.executed keys made few).of_same nonces executed
  | failed halted =>
    obtain ⟨nonces, executed⟩ := act_failed halted
    rw [List.append_nil]
    exact consistent.of_same nonces executed
  | locked poisoned =>
    rw [List.append_nil, act_of_poisoned poisoned]
    exact consistent
  | quiet noTransaction =>
    have quiet : Quiet state (Chain.act contracts state action) := act_quiet noTransaction
    rw [List.append_nil]
    exact consistent.of_same quiet.nonces quiet.executed

theorem Consistent.run {actions : List Action}
    (keys : (contracts.catalog.entries.map (·.key)).Nodup)
    (run : History contracts state actions later) (consistent : Consistent contracts history state)
    (few : (runFrom contracts state actions).executed.length < UInt64.size) :
    Consistent contracts (history ++ later) (runFrom contracts state actions) := by
  induction run generalizing history with
  | nil state =>
    rw [List.append_nil]
    exact consistent
  | @cons state action rest first later now next ih =>
    have fewNow : (Chain.act contracts state action).executed.length < UInt64.size := by
      have grown := next.executed_eq
      unfold runFrom at few grown
      rw [List.foldl_cons, grown, List.length_append] at few
      omega
    rw [← List.append_assoc]
    exact ih (consistent.act keys now fewNow) few

/-- No request is executed twice or without authority, whatever happens to a new chain. The counter
of each sender is the number of its entries in the log; the log lists the relay calls of the run,
each of them authorised just before it was executed; and no two of them have the same sender and the
same number. -/
theorem executed_once_with_authority {config : Config} {chainId : UInt64} {contracts : Contracts}
    (deployed : Contracts.ofConfig config chainId = .ok contracts) (actions : List Action)
    (few : (runFrom contracts {} actions).executed.length < UInt64.size) :
    (∀ sender, ((runFrom contracts {} actions).nonce sender).toNat
        = (runFrom contracts {} actions).executed.countP (·.2 = sender))
      ∧ ∃ history, History contracts {} actions history
        ∧ (runFrom contracts {} actions).executed = history.map Execution.entry
        ∧ (∀ execution ∈ history, execution.Authorised contracts)
        ∧ (history.map fun execution => (execution.sender, execution.nonce)).Nodup := by
  obtain ⟨catalog, built, rest⟩ := bind_eq_ok.1 deployed
  cases rest
  have keys := Catalog.builtin_keys_nodup built
  obtain ⟨history, run⟩ := history_exists _ {} actions
  have consistent := Consistent.initial.run keys run few
  rw [List.nil_append] at consistent
  exact ⟨consistent.counted, history, run, consistent.logged, consistent.authorised,
    consistent.distinct⟩

/-- A type is registered, a request that the owner of an account signed is executed, and its replay
is refused. -/
theorem executed_once_with_authority_replay :
    let config : Config := { relayAddress := 1, custodyAddress := 2, multiSendAddress := 3 }
    let burn : OperationType := ⟨"BurnToken", [.sender, .nonce, ⟨"tokenId", .uint 256⟩], 0, 0⟩
    let owner : Address := 0x6813eb9362372eef6200f3b1dbc3f819671cba69
    let signature := Account.signatureBytes
      (Bytes.ofNat 32 0x22256d20c74d07865042f5d88fa683871cdc599071562377707cc854266dac8c
        ++ Bytes.ofNat 32 0x538261ec02ca5ca661a9ffb959620d14004e3105c9dffc4de9a481162f21f138) 0
    let request : Bytes := Abi.encodeCall executeThresholdSignature
      [.tuple [.fixedBytes burn.typeHash, .address 9, .ofNat 0, .bytes (Abi.encode [.ofNat 5])],
        .array [.bytes signature]]
    let actions : List Action :=
      [.setOwnerSet 9 [owner] 1,
        .ask (.send 2 (Custody.proposeCalldata 1 (Registration.registerCalldata burn) .direct)),
        .ask (.send 1 request), .ask (.send 1 request)]
    ∃ contracts, Contracts.ofConfig config 1 = .ok contracts ∧
      (runFrom contracts {} actions).executed = [("BurnToken", 9)] ∧
      ((runFrom contracts {} actions).nonce 9).toNat = 1 ∧
      ∃ history, History contracts {} actions history ∧
        history.map Execution.entry = [("BurnToken", 9)] := by
  intro config burn owner signature request actions
  have evaluated : ((Contracts.ofConfig config 1).toOption.map fun contracts =>
      (runFrom contracts {} actions).executed) = some [("BurnToken", 9)] := by
    decide +kernel
  cases deployed : Contracts.ofConfig config 1 with
  | error error =>
    rw [deployed] at evaluated
    cases evaluated
  | ok contracts =>
    rw [deployed] at evaluated
    have executed : (runFrom contracts {} actions).executed = [("BurnToken", 9)] :=
      Option.some.inj evaluated
    have few : (runFrom contracts {} actions).executed.length < UInt64.size := by
      rw [executed]
      decide
    obtain ⟨counted, history, run, logged, -⟩ :=
      executed_once_with_authority deployed actions few
    refine ⟨contracts, rfl, executed, ?_, history, run, ?_⟩
    · rw [counted, executed]
      decide
    · rw [← logged, executed]

end Chain

end GaslessRelay
