import GaslessRelay.Proofs.CustodyBatches
import GaslessRelay.Proofs.OwnedCalls
import GaslessRelay.Proofs.TableChanges

/-!
Requests that are signed but not yet sent, while the chain goes on. The verdict on a relay call
depends on the counter and the owners of its sender, on the registration of its type, and on whether
the modules fail. Nothing but relay calls of this sender and unregistrations of this type moves
these, so a request that is sent later is executed as it would have been before, unless the chain has
crashed meanwhile (`signed_request_survives_unless_crashed`).
-/

namespace GaslessRelay

open Outcome

namespace Chain

variable {contracts : Contracts} {state next after : State} {call : RelayCall}

/-- What the relay does: a relay call, or a call of its owner. -/
inductive Event where
  | relayed (call : RelayCall)
  | owned (selector : Selector) (arguments : Bytes)

/-- An event that is neither a relay call of the sender nor an unregistration of the type. -/
def Event.Spares (call : RelayCall) : Event → Prop
  | .relayed other => other.request.sender ≠ call.request.sender
  | .owned selector arguments =>
    ¬(selector = Abi.functionSelector Registration.unregisterSignature ∧
      Abi.decode [.fixedBytes 32] arguments = .ok [.fixedBytes call.request.typeHash])

/-- Waiting messages take one state to another, with the given events on the way. -/
inductive Traces (contracts : Contracts) : State → List Message → List Event → State → Prop where
  | done (state : State) : Traces contracts state [] [] state
  | relayed {state next after : State} {sender : Address} {data : Bytes} {call : RelayCall}
      {rest : List Message} {events : List Event} (spelled : RelayCall.decode data = .ok call)
      (accepted : executeRelay contracts state call = .ok next)
      (later : Traces contracts next rest events after) :
      Traces contracts state (⟨sender, contracts.relay, data⟩ :: rest) (.relayed call :: events)
        after
  | owned {state next after : State} {selector : Selector} {arguments data : Bytes}
      {rest : List Message} {events : List Event}
      (split : splitSelector data = .ok (selector, arguments))
      (accepted : executeOwned state selector arguments = .ok next)
      (later : Traces contracts next rest events after) :
      Traces contracts state (⟨contracts.custody, contracts.relay, data⟩ :: rest)
        (.owned selector arguments :: events) after
  | proposed {state after : State} {sender : Address} {selector : Selector}
      {arguments data : Bytes} {calls : List BatchOperation} {rest : List Message}
      {events : List Event} (split : splitSelector data = .ok (selector, arguments))
      (named : selector = Abi.functionSelector Custody.proposeSignature)
      (held : proposedCalls contracts arguments = .ok calls)
      (later : Traces contracts state (contracts.messages calls ++ rest) events after) :
      Traces contracts state (⟨sender, contracts.custody, data⟩ :: rest) events after

theorem Executes.traces {messages : List Message} {history : List Execution}
    (run : Executes contracts state messages history after) :
    ∃ events, Traces contracts state messages events after := by
  induction run with
  | done state => exact ⟨[], .done state⟩
  | relayed spelled known accepted _ ih =>
    obtain ⟨events, later⟩ := ih
    exact ⟨_, .relayed spelled accepted later⟩
  | owned split accepted _ ih =>
    obtain ⟨events, later⟩ := ih
    exact ⟨_, .owned split accepted later⟩
  | proposed split named held _ ih =>
    obtain ⟨events, later⟩ := ih
    exact ⟨events, .proposed split named held later⟩

/-- All that the verdict on a relay call depends on is as it was. -/
structure Unmoved (call : RelayCall) (state after : State) : Prop where
  registered : state.registered.contains call.request.typeHash = true →
    after.registered.contains call.request.typeHash = true
  counter : after.nonce call.request.sender = state.nonce call.request.sender
  owners : after.ownerSets = state.ownerSets
  modules : after.moduleRevert = state.moduleRevert

namespace Unmoved

theorem refl (call : RelayCall) (state : State) : Unmoved call state state := ⟨id, rfl, rfl, rfl⟩

theorem trans (first : Unmoved call state next) (second : Unmoved call next after) :
    Unmoved call state after where
  registered := second.registered ∘ first.registered
  counter := second.counter.trans first.counter
  owners := second.owners.trans first.owners
  modules := second.modules.trans first.modules

theorem relayedOperation_eq (unmoved : Unmoved call state after) {operation : OperationType}
    (checked : relayedOperation contracts state call = .ok operation) :
    relayedOperation contracts after call = .ok operation := by
  have signatures : checkSignatures after call = checkSignatures state call := by
    funext digest
    unfold checkSignatures
    rw [unmoved.owners]
  unfold relayedOperation at checked ⊢
  by_cases known : state.registered.contains call.request.typeHash = true
  · rw [if_pos known] at checked
    rw [if_pos (unmoved.registered known), unmoved.counter, unmoved.modules, signatures]
    exact checked
  · rw [if_neg known] at checked
    cases checked

end Unmoved

theorem unmoved_relayed (key : String) {sender : Address}
    (other : sender ≠ call.request.sender) : Unmoved call state (state.relayed key sender) where
  registered := id
  counter := by
    unfold State.relayed State.nonce
    rw [Table.get?_insert, if_neg other]
  owners := rfl
  modules := rfl

theorem unmoved_withRegistered {table : Table 256 String}
    (kept : state.registered.contains call.request.typeHash = true →
      table.contains call.request.typeHash = true) :
    Unmoved call state (state.withRegistered table) :=
  ⟨kept, rfl, rfl, rfl⟩

/-- The owner of the relay leaves a registered type alone unless it unregisters this very type. -/
theorem unmoved_owned {selector : Selector} {arguments : Bytes}
    (accepted : executeOwned state selector arguments = .ok after)
    (spared : (Event.owned selector arguments).Spares call) : Unmoved call state after := by
  unfold executeOwned at accepted
  split_ifs at accepted with register unregister edits
  · rw [reverting_eq_ok] at accepted
    obtain ⟨values, -, accepted⟩ := bind_eq_ok.1 accepted
    split at accepted
    · rename_i typeString _ _
      dsimp only at accepted
      split_ifs at accepted
      cases accepted
      refine unmoved_withRegistered fun known => ?_
      rw [Table.contains_insert]
      split_ifs
      · rfl
      · exact known
    · cases accepted
  · rw [reverting_eq_ok] at accepted
    obtain ⟨values, read, accepted⟩ := bind_eq_ok.1 accepted
    split at accepted
    · rename_i typeHash
      split_ifs at accepted
      cases accepted
      refine unmoved_withRegistered fun known => ?_
      have other : typeHash ≠ call.request.typeHash := by
        rintro rfl
        exact spared ⟨unregister, decoded_eq_ok.1 read⟩
      rwa [Table.contains_erase, if_neg other]
    · cases accepted
  · unfold executeEdits at accepted
    obtain ⟨_, -, accepted⟩ := bind_eq_ok.1 accepted
    obtain ⟨table, -, accepted⟩ := bind_eq_ok.1 accepted
    cases accepted
    exact ⟨id, rfl, rfl, rfl⟩

theorem Traces.unmoved {messages : List Message} {events : List Event}
    (run : Traces contracts state messages events after)
    (spared : ∀ event ∈ events, event.Spares call) : Unmoved call state after := by
  -- A proposal is no event of its own: the calls that it holds are.
  induction run with
  | done state => exact .refl call state
  | relayed spelled accepted _ ih =>
    obtain ⟨operation, _, _, _, _, _, _, rfl⟩ := executeRelay_eq_ok accepted
    have others := ih fun event member => spared event (List.mem_cons_of_mem _ member)
    exact (unmoved_relayed operation.key (spared _ List.mem_cons_self)).trans others
  | owned split accepted _ ih =>
    have others := ih fun event member => spared event (List.mem_cons_of_mem _ member)
    exact (unmoved_owned accepted (spared _ List.mem_cons_self)).trans others
  | proposed split named held _ ih => exact ih spared

/-- The events of a request to the ledger: those of a transaction that succeeds, and none else. -/
inductive Causes (contracts : Contracts) (state : State) : LedgerRequest → List Event → Prop where
  | succeeded {target : Address} {data : Bytes} {events : List Event} {after : State}
      (unlocked : state.poisoned = false)
      (accepted : execute contracts state.mined relayerAccount target data = .ok after)
      (made : Traces contracts state.mined [⟨relayerAccount, target, data⟩] events after) :
      Causes contracts state (.send target data) events
  | failed {target : Address} {data : Bytes} {halt : Halt}
      (halted : execute contracts state.mined relayerAccount target data = .error halt) :
      Causes contracts state (.send target data) []
  | locked {request : LedgerRequest} (poisoned : state.poisoned = true) :
      Causes contracts state request []
  | quiet {request : LedgerRequest} (noTransaction : ∀ target data, request ≠ .send target data) :
      Causes contracts state request []

/-- Requests to the ledger take one state to another, with the given events on the way. -/
inductive Evolves (contracts : Contracts) :
    State → List LedgerRequest → List Event → State → Prop where
  | nil (state : State) : Evolves contracts state [] [] state
  | cons {state after : State} {request : LedgerRequest} {rest : List LedgerRequest}
      {first later : List Event} (now : Causes contracts state request first)
      (next : Evolves contracts (answer contracts state request).2 rest later after) :
      Evolves contracts state (request :: rest) (first ++ later) after

theorem causes_exists (contracts : Contracts) (state : State) (request : LedgerRequest) :
    ∃ events, Causes contracts state request events := by
  by_cases transaction : ∃ target data, request = .send target data
  · obtain ⟨target, data, rfl⟩ := transaction
    cases unlocked : state.poisoned with
    | true => exact ⟨[], .locked unlocked⟩
    | false =>
      cases outcome : execute contracts state.mined relayerAccount target data with
      | ok after =>
        obtain ⟨history, made⟩ := executes_of_execute outcome
        obtain ⟨events, traced⟩ := made.traces
        exact ⟨events, .succeeded unlocked outcome traced⟩
      | error halt => exact ⟨[], .failed outcome⟩
  · exact ⟨[], .quiet fun target data same => transaction ⟨target, data, same⟩⟩

/-- A call that the custody account is made to make as the owner of the relay is the only event. -/
theorem causes_proposeCalldata (unlocked : state.poisoned = false) {signature : String}
    (owned : signature ∈ ownedSignatures) {arguments : List AbiValue}
    (small : (Custody.proposeCalldata contracts.relay (Abi.encodeCall signature arguments)
      .direct).length < Text.wordLimit)
    (accepted : executeOwned state.mined (Abi.functionSelector signature) (Abi.encode arguments)
      = .ok next) :
    Causes contracts state
      (.send contracts.custody
        (Custody.proposeCalldata contracts.relay (Abi.encodeCall signature arguments) .direct))
      [.owned (Abi.functionSelector signature) (Abi.encode arguments)] := by
  have executed := (execute_proposeCalldata small relayerAccount).trans
    ((@execute_owned contracts state.mined signature owned arguments).trans accepted)
  have held := @proposedCalls_direct contracts _ _ (length_proposalArguments_lt small)
  exact .succeeded unlocked executed (.proposed (splitSelector_encodeCall _ _) rfl held
    (.owned (splitSelector_encodeCall _ _) accepted (.done next)))

/-- Every run of requests has its events, so the statements about them are about every run. -/
theorem evolves_exists (contracts : Contracts) (state : State) (requests : List LedgerRequest) :
    ∃ events, Evolves contracts state requests events
      (runFrom contracts state (requests.map Action.ask)) := by
  induction requests generalizing state with
  | nil => exact ⟨[], .nil state⟩
  | cons request rest ih =>
    obtain ⟨first, now⟩ := causes_exists contracts state request
    obtain ⟨later, next⟩ := ih (answer contracts state request).2
    exact ⟨first ++ later, .cons now next⟩

theorem unmoved_quiet {request : LedgerRequest}
    (noTransaction : ∀ target data, request ≠ .send target data) :
    Unmoved call state (answer contracts state request).2 := by
  by_cases number : request = .chainId
  · rw [number]
    exact .refl call state
  cases unlocked : state.poisoned with
  | true =>
    rw [answer_of_poisoned unlocked number]
    exact .refl call state
  | false =>
    cases request with
    | call target data =>
      obtain ⟨reads, poisoned, changed⟩ := call_snd contracts state target data
      rw [answer_call unlocked, changed]
      exact ⟨id, rfl, rfl, rfl⟩
    | send target data => exact absurd rfl (noTransaction target data)
    | receipt transaction =>
      rw [answer_receipt unlocked]
      exact .refl call state
    | blockNumber =>
      rw [answer_blockNumber unlocked]
      exact ⟨id, rfl, rfl, rfl⟩
    | chainId => exact absurd rfl number

theorem Causes.unmoved {request : LedgerRequest} {events : List Event}
    (causes : Causes contracts state request events)
    (spared : ∀ event ∈ events, event.Spares call) :
    Unmoved call state (answer contracts state request).2 := by
  cases causes with
  | succeeded unlocked accepted made =>
    have kept := made.unmoved spared
    rw [answer_send unlocked, send_of_ok accepted]
    exact ⟨kept.registered, kept.counter, kept.owners, kept.modules⟩
  | @failed target data halt halted =>
    cases unlocked : state.poisoned with
    | true =>
      rw [answer_of_poisoned unlocked (by simp)]
      exact .refl call state
    | false =>
      rw [answer_send unlocked]
      cases halt with
      | reverted revert => rw [send_of_reverted halted]; exact ⟨id, rfl, rfl, rfl⟩
      | crashed => rw [send_of_crashed halted]; exact ⟨id, rfl, rfl, rfl⟩
  | locked poisoned =>
    by_cases number : request = .chainId
    · rw [number]
      exact .refl call state
    · rw [answer_of_poisoned poisoned number]
      exact .refl call state
  | quiet noTransaction => exact unmoved_quiet noTransaction

theorem Evolves.unmoved {requests : List LedgerRequest} {events : List Event}
    (run : Evolves contracts state requests events after)
    (spared : ∀ event ∈ events, event.Spares call) : Unmoved call state after := by
  induction run with
  | nil state => exact .refl call state
  | cons now _ ih =>
    have kept := now.unmoved fun event member => spared event (List.mem_append_left _ member)
    exact kept.trans (ih fun event member => spared event (List.mem_append_right _ member))

theorem known_of_relayedOperation {operation : OperationType}
    (checked : relayedOperation contracts state call = .ok operation) :
    contracts.catalog.byTypeHash? call.request.typeHash = some operation := by
  unfold relayedOperation at checked
  cases known : contracts.catalog.byTypeHash? call.request.typeHash with
  | none =>
    rw [known] at checked
    split_ifs at checked
  | some other =>
    rw [known] at checked
    split_ifs at checked with registered live
    · obtain ⟨_, -, checked⟩ := bind_eq_ok.1 checked
      obtain ⟨_, -, checked⟩ := bind_eq_ok.1 checked
      split at checked
      · cases checked
      · exact congrArg some (Except.ok.inj checked)
    · obtain ⟨_, -, checked⟩ := bind_eq_ok.1 checked
      cases checked

theorem outcome_relay {data : Bytes} (spelled : RelayCall.decode data = .ok call)
    (state : State) :
    (Transaction.mk state contracts.relay data).outcome contracts
      = reverting ((fun operation => state.mined.relayed operation.key call.request.sender)
        <$> relayedOperation contracts state call) := by
  have mined : relayedOperation contracts state.mined call = relayedOperation contracts state call :=
    rfl
  unfold Transaction.outcome
  rw [execute_relay spelled, executeRelay_eq, mined]

/-- The chain answers a transaction, which succeeds and appends one entry to the log. -/
def Transaction.Appends (contracts : Contracts) (transaction : Transaction)
    (entry : String × Address) : Prop :=
  ∃ after receipt,
    answer contracts transaction.chain (.send transaction.target transaction.data)
      = (some (.ok transaction.hash), after) ∧
    after.receipts.get? transaction.hash = some receipt ∧ receipt.success = true ∧
    after.executed = transaction.chain.executed ++ [entry]

theorem appends_relay (unlocked : state.poisoned = false) {data : Bytes}
    (spelled : RelayCall.decode data = .ok call) {operation : OperationType}
    (checked : relayedOperation contracts state call = .ok operation) :
    Transaction.Appends contracts ⟨state, contracts.relay, data⟩
      (operation.key, call.request.sender) := by
  have accepted := @outcome_relay contracts call data spelled state
  rw [checked] at accepted
  let hash := transactionHash state.mined.block data
  refine ⟨(state.mined.relayed operation.key call.request.sender).withReceipt hash
    state.mined.block true, ⟨hash, state.mined.block, true, none⟩,
    (answer_send unlocked _ _).trans ?_, (Table.get?_insert _ _ _ _).trans (if_pos rfl), rfl, rfl⟩
  rw [send_of_ok accepted]
  rfl

/-- A request to the ledger whose execution crashes. -/
inductive Crashes (contracts : Contracts) (state : State) : LedgerRequest → Prop where
  | call {target : Address} {data : Bytes} (unviewed : view? contracts state target data = none)
      (crashed : execute contracts state relayerAccount target data = .error .crashed) :
      Crashes contracts state (.call target data)
  | send {target : Address} {data : Bytes}
      (crashed : execute contracts state.mined relayerAccount target data = .error .crashed) :
      Crashes contracts state (.send target data)

/-- One of the requests, in the state that those before it leave, crashes. -/
def Crashed (contracts : Contracts) (state : State) (requests : List LedgerRequest) : Prop :=
  ∃ before request later, requests = before ++ request :: later ∧
    Crashes contracts (runFrom contracts state (before.map Action.ask)) request

theorem poisoned_iff_of_safe {request : LedgerRequest} (kept : after.poisoned = state.poisoned)
    (safe : ¬Crashes contracts state request) :
    after.poisoned = true ↔ state.poisoned = true ∨ Crashes contracts state request := by
  rw [kept]
  exact ⟨.inl, fun either => either.resolve_right safe⟩

theorem poisoned_call_iff {target : Address} {data : Bytes} :
    (Chain.call contracts state target data).2.poisoned = true ↔
      state.poisoned = true ∨ Crashes contracts state (.call target data) := by
  unfold Chain.call
  cases viewed : view? contracts state target data with
  | some answered =>
    obtain ⟨reads, same⟩ := view?_eq_some viewed
    refine poisoned_iff_of_safe (by rw [same]) ?_
    rintro ⟨unviewed, -⟩
    cases viewed.symm.trans unviewed
  | none =>
    rcases outcome : execute contracts state relayerAccount target data with (revert | _) | after
    · refine poisoned_iff_of_safe rfl ?_
      rintro ⟨-, crashed⟩
      cases outcome.symm.trans crashed
    · exact ⟨fun _ => .inr (.call viewed outcome), fun _ => rfl⟩
    · refine poisoned_iff_of_safe rfl ?_
      rintro ⟨-, crashed⟩
      cases outcome.symm.trans crashed

theorem poisoned_send_iff {target : Address} {data : Bytes} :
    (Chain.send contracts state target data).2.poisoned = true ↔
      state.poisoned = true ∨ Crashes contracts state (.send target data) := by
  have safe : execute contracts state.mined relayerAccount target data ≠ .error .crashed →
      ¬Crashes contracts state (.send target data) := by
    intro finishes crashes
    cases crashes with
    | send crashed => exact finishes crashed
  rcases outcome : execute contracts state.mined relayerAccount target data with
    (revert | _) | after
  · rw [send_of_reverted outcome]
    exact poisoned_iff_of_safe rfl (safe (by simp [outcome]))
  · rw [send_of_crashed outcome]
    exact ⟨fun _ => .inr (.send outcome), fun _ => rfl⟩
  · rw [send_of_ok outcome]
    have kept : after.poisoned = state.mined.poisoned := poisoned_of_execute outcome
    exact poisoned_iff_of_safe kept (safe (by simp [outcome]))

/-- A request leaves the lock poisoned that was poisoned before, or whose holder it crashes. -/
theorem poisoned_answer_iff {request : LedgerRequest} :
    (answer contracts state request).2.poisoned = true ↔
      state.poisoned = true ∨ Crashes contracts state request := by
  by_cases number : request = .chainId
  · rw [number]
    exact poisoned_iff_of_safe rfl fun crashes => nomatch crashes
  cases unlocked : state.poisoned with
  | true =>
    rw [answer_of_poisoned unlocked number]
    exact ⟨fun _ => .inl rfl, fun _ => unlocked⟩
  | false =>
    rw [← unlocked]
    cases request with
    | call target data =>
      rw [answer_call unlocked]
      exact poisoned_call_iff
    | send target data =>
      rw [answer_send unlocked]
      exact poisoned_send_iff
    | receipt transaction =>
      rw [answer_receipt unlocked]
      exact poisoned_iff_of_safe rfl fun crashes => nomatch crashes
    | blockNumber =>
      rw [answer_blockNumber unlocked]
      exact poisoned_iff_of_safe rfl fun crashes => nomatch crashes
    | chainId => exact absurd rfl number

theorem crashed_cons_iff {request : LedgerRequest} {rest : List LedgerRequest} :
    Crashed contracts state (request :: rest) ↔
      Crashes contracts state request ∨ Crashed contracts (answer contracts state request).2 rest := by
  constructor
  · rintro ⟨before, other, later, same, crashes⟩
    cases before with
    | nil =>
      cases same
      exact .inl crashes
    | cons first before =>
      cases same
      exact .inr ⟨before, other, later, rfl, crashes⟩
  · rintro (crashes | ⟨before, other, later, rfl, crashes⟩)
    · exact ⟨[], request, rest, rfl, crashes⟩
    · exact ⟨request :: before, other, later, rfl, crashes⟩

theorem Evolves.poisoned_iff {requests : List LedgerRequest} {events : List Event}
    (run : Evolves contracts state requests events after) :
    after.poisoned = true ↔ state.poisoned = true ∨ Crashed contracts state requests := by
  induction run with
  | nil state =>
    refine ⟨.inl, ?_⟩
    rintro (poisoned | ⟨before, request, later, same, -⟩)
    · exact poisoned
    · cases before <;> cases same
  | cons now _ ih => rw [ih, poisoned_answer_iff, crashed_cons_iff, or_assoc]

/-- A relay call that succeeds at once also succeeds after a run in which its sender has no other
relay call executed and its type is not unregistered, and it logs the same operation for the same
sender, exactly if no request of the run crashed the chain. Otherwise it is never answered. -/
theorem signed_request_survives_unless_crashed (unlocked : state.poisoned = false) {data : Bytes}
    (spelled : RelayCall.decode data = .ok call)
    (executes : (Transaction.mk state contracts.relay data).succeeds contracts = true)
    {requests : List LedgerRequest} {events : List Event}
    (evolved : Evolves contracts state requests events after)
    (spared : ∀ event ∈ events, event.Spares call) :
    ∃ operation, contracts.catalog.byTypeHash? call.request.typeHash = some operation ∧
      Transaction.Appends contracts ⟨state, contracts.relay, data⟩
        (operation.key, call.request.sender) ∧
      (Transaction.Appends contracts ⟨after, contracts.relay, data⟩
        (operation.key, call.request.sender) ↔ ¬Crashed contracts state requests) ∧
      (Crashed contracts state requests →
        answer contracts after (.send contracts.relay data) = (none, after)) := by
  unfold Transaction.succeeds at executes
  rw [outcome_relay spelled] at executes
  have locked := evolved.poisoned_iff
  rw [unlocked] at locked
  cases checked : relayedOperation contracts state call with
  | error revert =>
    rw [checked] at executes
    cases executes
  | ok operation =>
    have later : relayedOperation contracts after call = .ok operation :=
      (evolved.unmoved spared).relayedOperation_eq checked
    have lost : Crashed contracts state requests →
        answer contracts after (.send contracts.relay data) = (none, after) :=
      fun crashed => answer_of_poisoned (locked.2 (.inr crashed)) (by simp)
    refine ⟨operation, known_of_relayedOperation checked, appends_relay unlocked spelled checked,
      ⟨?_, ?_⟩, lost⟩
    · rintro ⟨final, receipt, answered, -⟩ crashed
      cases (lost crashed).symm.trans answered
    · intro safe
      refine appends_relay (Bool.eq_false_iff.2 fun poisoned => ?_) spelled later
      rcases locked.1 poisoned with impossible | crashed
      · cases impossible
      · exact safe crashed

/-- An operation type, contracts that know it, and a request of this type for an account, which one
of the account's owners signed. -/
def burnType : OperationType := ⟨"BurnToken", [.sender, .nonce, ⟨"tokenId", .uint 256⟩], 0, 0⟩

def burnContracts : Contracts := ⟨1, 1, 2, 3, ⟨[burnType]⟩, ⟨"Relay", "1", 1, 1⟩⟩

def burnState : State :=
  let empty : State := default
  { empty with
    registered := empty.registered.insert burnType.typeHash burnType.typeString
    ownerSets := empty.ownerSets.insert 9 ⟨[0x6813eb9362372eef6200f3b1dbc3f819671cba69], 1⟩ }

def burnCall : RelayCall where
  request := ⟨burnType.typeHash, 9, 0, Abi.encode [.ofNat 5]⟩
  signatures := [Account.signatureBytes
    (Bytes.ofNat 32 0x38e4178f029dc43edb374900232a0012c3bff7b5929d081f68e967ae5962131b
      ++ Bytes.ofNat 32 0x5dd32755ae3e4b5131264a8e3a1d4a0fa9cd9ee4a579ab2525192a83889f911c) 1]
  thresholdPath := true

def burnCalldata : Bytes :=
  Abi.encodeCall executeThresholdSignature
    [.tuple [.fixedBytes burnType.typeHash, .address 9, .ofNat 0, .bytes burnCall.request.data],
      .array (burnCall.signatures.map .bytes)]

theorem decode_burnCalldata : RelayCall.decode burnCalldata = .ok burnCall := by
  decide +kernel

theorem succeeds_burnCalldata :
    (Transaction.mk burnState 1 burnCalldata).succeeds burnContracts = true := by
  decide +kernel

/-- Another type is registered and a transaction fails before the request is sent. -/
theorem signed_request_survives_registration :
    let mint : OperationType := ⟨"MintToken", [.sender, .nonce, ⟨"uri", .string⟩], 0, 0⟩
    let proposal := Custody.proposeCalldata 1 (Registration.registerCalldata mint) .direct
    let after := runFrom burnContracts burnState [.ask (.send 2 proposal), .ask (.send 4 []),
      .ask .blockNumber]
    after.registered.contains mint.typeHash = true ∧
      Transaction.Appends burnContracts ⟨after, 1, burnCalldata⟩ ("BurnToken", 9) := by
  intro mint proposal after
  have small : proposal.length < Text.wordLimit := by decide +kernel
  have inner : (Registration.registerCalldata mint).length < Text.wordLimit := by decide +kernel
  have absent : ¬burnState.mined.registered.contains mint.typeHash = true := by decide +kernel
  have entered := @execute_registerCalldata burnContracts burnState.mined mint inner
  rw [if_neg absent, Registration.registerCalldata, execute_owned List.mem_cons_self] at entered
  have registers : Causes burnContracts burnState (.send 2 proposal) _ :=
    @causes_proposeCalldata burnContracts burnState _ rfl _ List.mem_cons_self _ small entered
  have refused : ∀ chain, execute burnContracts chain relayerAccount 4 []
      = .error (.reverted .shortCalldata) := fun _ => rfl
  have evolved : Evolves burnContracts burnState [.send 2 proposal, .send 4 [], .blockNumber] _
      after :=
    .cons registers (.cons (.failed (refused _)) (.cons (.quiet (by simp)) (.nil _)))
  have other : Abi.functionSelector Registration.registerSignature
      ≠ Abi.functionSelector Registration.unregisterSignature := by
    decide +kernel
  obtain ⟨operation, known, -, survives, -⟩ := @signed_request_survives_unless_crashed
    burnContracts burnState after burnCall rfl burnCalldata decode_burnCalldata
    succeeds_burnCalldata _ _ evolved fun event member => by
      rw [List.mem_singleton.1 member]
      exact fun unregisters => other unregisters.1
  have catalogued : burnContracts.catalog.byTypeHash? burnType.typeHash = some burnType := by
    decide +kernel
  have same : operation = burnType := Option.some.inj (known.symm.trans catalogued)
  have ran : after.registered.contains mint.typeHash = true ∧ after.poisoned = false := by
    decide +kernel
  have safe : ¬Crashed burnContracts burnState [.send 2 proposal, .send 4 [], .blockNumber] := by
    intro crashed
    have poisoned := evolved.poisoned_iff.2 (.inr crashed)
    rw [ran.2] at poisoned
    cases poisoned
  rw [same] at survives
  exact ⟨ran.1, survives.2 safe⟩

/-- A proposal with edits that do not fit into memory, made by anyone, and the request is lost. -/
theorem signed_request_lost_to_huge_edits :
    let after := runFrom burnContracts burnState
      [.ask (.send 2 (Custody.proposeCalldata 1 hugeEdits .direct))]
    (Transaction.mk burnState 1 burnCalldata).succeeds burnContracts = true ∧
      after.registered.contains burnType.typeHash = true ∧ after.nonce 9 = 0 ∧
      answer burnContracts after (.send 1 burnCalldata) = (none, after) := by
  intro after
  obtain ⟨poisoned, registered, counter⟩ : after.poisoned = true ∧
      after.registered.contains burnType.typeHash = true ∧ after.nonce 9 = 0 := by
    decide +kernel
  exact ⟨succeeds_burnCalldata, registered, counter, answer_of_poisoned poisoned (by simp)⟩

end Chain

end GaslessRelay
