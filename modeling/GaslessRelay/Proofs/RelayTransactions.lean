import GaslessRelay.Proofs.ExecutionHistory
import GaslessRelay.Proofs.RelayCalldata

/-!
Transactions and what they append to the log. Main statement: a relay call that succeeds executes
its own request, and nothing besides (`Transaction.entries_of_relayCalldata`).
-/

namespace GaslessRelay.Chain

open Outcome

/-- A transaction, with the chain that it is sent to. -/
structure Transaction where
  chain : State
  target : Address
  data : Bytes

namespace Transaction

/-- What the hash of a transaction is taken of: its block and its data. -/
def seed (transaction : Transaction) : Bytes :=
  Bytes.ofNat 8 transaction.chain.mined.block.toNat ++ transaction.data

def hash (transaction : Transaction) : Hash := Digest.keccak256 transaction.seed

def outcome (contracts : Contracts) (transaction : Transaction) : Except Halt State :=
  execute contracts transaction.chain.mined relayerAccount transaction.target transaction.data

def succeeds (contracts : Contracts) (transaction : Transaction) : Bool :=
  (transaction.outcome contracts).isOk

/-- What a transaction appends to the log; nothing if it fails. -/
def entries (contracts : Contracts) (transaction : Transaction) : List (String × Address) :=
  match transaction.outcome contracts with
  | .ok after => after.executed.drop transaction.chain.executed.length
  | .error _ => []

variable {contracts : Contracts} {transaction : Transaction}

theorem entries_of_not_succeeds (failed : transaction.succeeds contracts = false) :
    transaction.entries contracts = [] := by
  unfold succeeds at failed
  unfold entries
  cases outcome : transaction.outcome contracts with
  | ok after =>
    rw [outcome] at failed
    cases failed
  | error halt => rfl

theorem entries_of_executes {after : State} {history : List Execution}
    (accepted : transaction.outcome contracts = .ok after)
    (made : Executes contracts transaction.chain.mined
      [⟨relayerAccount, transaction.target, transaction.data⟩] history after) :
    transaction.entries contracts = history.map Execution.entry := by
  unfold entries
  rw [accepted]
  dsimp only
  rw [made.executed_eq]
  exact List.drop_left

/-- A transaction makes a block, settles itself, and appends its entries to the log; or the chain
does not answer it, and keeps its log. -/
theorem answer_eq (contracts : Contracts) (transaction : Transaction) :
    (∃ after : State, answer contracts transaction.chain (.send transaction.target transaction.data)
        = (some (.ok transaction.hash), after.withReceipt transaction.hash
            transaction.chain.mined.block (transaction.succeeds contracts))
      ∧ after.block = transaction.chain.block + 1
      ∧ after.receipts = transaction.chain.receipts
      ∧ after.executed = transaction.chain.executed ++ transaction.entries contracts)
    ∨ ∃ after : State, answer contracts transaction.chain (.send transaction.target transaction.data)
        = (none, after) ∧ Quiet transaction.chain after := by
  cases unlocked : transaction.chain.poisoned with
  | true =>
    refine .inr ⟨transaction.chain, ?_, rfl, rfl, rfl, .inl rfl⟩
    rw [answer, State.locked_of_poisoned unlocked]
  | false =>
    rw [answer, State.locked_of_unlocked unlocked]
    rcases outcome : transaction.outcome contracts with (revert | _) | after
    · have failed : transaction.succeeds contracts = false := by
        unfold succeeds
        rw [outcome]
        rfl
      refine .inl ⟨transaction.chain.mined, ?_, rfl, rfl, ?_⟩
      · rw [send_of_reverted outcome, failed]
        rfl
      · rw [entries_of_not_succeeds failed, List.append_nil]
        rfl
    · refine .inr ⟨transaction.chain.mined.poison, ?_, rfl, rfl, rfl, .inr rfl⟩
      rw [send_of_crashed outcome]
      rfl
    · obtain ⟨history, made⟩ := executes_of_execute outcome
      have succeeded : transaction.succeeds contracts = true := by
        unfold succeeds
        rw [outcome]
        rfl
      obtain ⟨block, receipts, -⟩ := made.keeps_blocks
      refine .inl ⟨after, ?_, block, receipts, ?_⟩
      · rw [send_of_ok outcome, succeeded]
        rfl
      · rw [made.executed_eq, entries_of_executes outcome made]
        rfl

end Transaction

end GaslessRelay.Chain

namespace GaslessRelay

/-- A relay call is a call of one of the two relay functions on the encoded request. -/
theorem EncodedRequest.relayCalldata_eq_ok {encoded : EncodedRequest} {policy : AccountPolicy}
    {set : SignatureSet} {data : Bytes} (spelled : encoded.relayCalldata policy set = .ok data) :
    ∃ signature signatures, signature ∈ [executeSingleSignature, executeThresholdSignature]
      ∧ signatures.isDynamic = true
      ∧ data = Abi.encodeCall signature [encoded.toAbi, signatures] := by
  unfold EncodedRequest.relayCalldata at spelled
  split at spelled
  · cases spelled
  · split at spelled
    · cases spelled
      exact ⟨_, _, List.mem_cons_self, rfl, rfl⟩
    · cases spelled
  · cases spelled
    exact ⟨_, _, List.mem_cons_of_mem _ List.mem_cons_self, rfl, rfl⟩

theorem RelayCall.pathOf?_isSome {signature : String}
    (member : signature ∈ [executeSingleSignature, executeThresholdSignature]) :
    ∃ thresholdPath, pathOf? (selectorBytes (Abi.functionSelector signature))
      = some thresholdPath := by
  rcases List.mem_cons.1 member with rfl | member
  · exact ⟨false, pathOf?_single⟩
  · rw [List.mem_singleton.1 member]
    exact ⟨true, pathOf?_threshold⟩

/-- The calldata of a relay call starts with the selector of a relay function. -/
theorem RelayCall.splitSelector_of_decode {data : Bytes} {call : RelayCall}
    (spelled : RelayCall.decode data = .ok call) :
    ∃ signature ∈ [executeSingleSignature, executeThresholdSignature],
      Chain.splitSelector data = .ok (Abi.functionSelector signature, data.drop 4) := by
  unfold decode at spelled
  unfold Chain.splitSelector
  split_ifs at spelled ⊢ with short
  cases path : pathOf? (data.take 4) with
  | none =>
    rw [path] at spelled
    cases spelled
  | some thresholdPath =>
    unfold pathOf? at path
    split_ifs at path with single threshold
    · exact ⟨_, List.mem_cons_self, by rw [single, selectorOfBytes_selectorBytes]⟩
    · exact ⟨_, List.mem_cons_of_mem _ List.mem_cons_self,
        by rw [threshold, selectorOfBytes_selectorBytes]⟩

namespace Chain

open Outcome

/-- The functions that only the owner of the relay may call, and that of the custody account. -/
def otherSignatures : List String :=
  [Registration.registerSignature, Registration.unregisterSignature, Dispatch.applyEditsSignature,
    Custody.proposeSignature]

/-- No other function has the selector of a relay function. -/
theorem relaySelectors_ne :
    ∀ signature ∈ [executeSingleSignature, executeThresholdSignature], ∀ other ∈ otherSignatures,
      Abi.functionSelector signature ≠ Abi.functionSelector other := by
  decide +kernel

theorem executeOwned_selector {state after : State} {selector : Selector} {arguments : Bytes}
    (accepted : executeOwned state selector arguments = .ok after) :
    ∃ other ∈ otherSignatures, selector = Abi.functionSelector other := by
  unfold executeOwned at accepted
  split_ifs at accepted with register unregister edits
  · exact ⟨_, by simp [otherSignatures], register⟩
  · exact ⟨_, by simp [otherSignatures], unregister⟩
  · exact ⟨_, by simp [otherSignatures], edits⟩

theorem selector_of_executeOwned_crashed {state : State} {selector : Selector} {arguments : Bytes}
    (crashed : executeOwned state selector arguments = .error .crashed) :
    selector = Abi.functionSelector Dispatch.applyEditsSignature := by
  unfold executeOwned at crashed
  split_ifs at crashed with register unregister edits
  · exact absurd crashed (reverting_ne_crashed _)
  · exact absurd crashed (reverting_ne_crashed _)
  · exact edits
  · cases crashed

/-- Only a proposal, or edits of the dispatch table, can crash the chain. -/
theorem selector_of_crashed {contracts : Contracts} {state : State} {sender target : Address}
    {data : Bytes} (crashed : execute contracts state sender target data = .error .crashed) :
    ∃ signature ∈ otherSignatures, ∃ arguments,
      splitSelector data = .ok (Abi.functionSelector signature, arguments) := by
  unfold execute executeWithin at crashed
  cases split : splitSelector data with
  | error revert =>
    rw [split] at crashed
    cases crashed
  | ok parts =>
    obtain ⟨selector, arguments⟩ := parts
    rw [split, reverting_ok, ok_bind] at crashed
    dsimp only at crashed
    split_ifs at crashed with proposal elsewhere
    · rw [proposal.2]
      exact ⟨Custody.proposeSignature, by simp [otherSignatures], arguments, rfl⟩
    · cases crashed
    · cases decode : RelayCall.decode data with
      | ok call =>
        rw [decode] at crashed
        exact absurd crashed (reverting_ne_crashed _)
      | error error =>
        rw [decode] at crashed
        cases crashed
    · cases decode : RelayCall.decode data with
      | ok call =>
        rw [decode] at crashed
        exact absurd crashed (reverting_ne_crashed _)
      | error error =>
        rw [decode] at crashed
        rw [selector_of_executeOwned_crashed crashed]
        exact ⟨Dispatch.applyEditsSignature, by simp [otherSignatures], arguments, rfl⟩

theorem splitSelector_encodeCall (signature : String) (arguments : List AbiValue) :
    splitSelector (Abi.encodeCall signature arguments)
      = .ok (Abi.functionSelector signature, Abi.encode arguments) := by
  have long : ¬(Abi.encodeCall signature arguments).length < 4 := by
    rw [Abi.length_encodeCall]
    omega
  unfold splitSelector
  rw [if_neg long, Abi.take_encodeCall, Abi.drop_encodeCall, selectorOfBytes_selectorBytes]

/-- Whoever sends a relay call, the relay executes it. -/
theorem execute_relay {contracts : Contracts} {state : State} {data : Bytes} {call : RelayCall}
    (spelled : RelayCall.decode data = .ok call) (caller : Address) :
    execute contracts state caller contracts.relay data
      = reverting (executeRelay contracts state call) := by
  obtain ⟨signature, relayFunction, split⟩ := RelayCall.splitSelector_of_decode spelled
  -- Custody and relay may have one address, so a relay call must not pass for a proposal.
  have noProposal := relaySelectors_ne signature relayFunction Custody.proposeSignature
    (by simp [otherSignatures])
  unfold execute executeWithin
  rw [split, reverting_ok, ok_bind]
  dsimp only
  rw [if_neg (fun proposal => noProposal proposal.2), if_neg (not_not.2 rfl), spelled]

/-- A relay call cannot crash the chain, wherever it is sent. -/
theorem finishes_relayCalldata {contracts : Contracts} {state : State} {sender target : Address}
    {data : Bytes} {encoded : EncodedRequest} {policy : AccountPolicy} {set : SignatureSet}
    (spelled : encoded.relayCalldata policy set = .ok data) :
    execute contracts state sender target data ≠ .error .crashed := by
  obtain ⟨signature, signatures, relayFunction, -, rfl⟩ :=
    EncodedRequest.relayCalldata_eq_ok spelled
  intro crashed
  obtain ⟨other, listed, arguments, split⟩ := selector_of_crashed crashed
  rw [splitSelector_encodeCall] at split
  exact relaySelectors_ne signature relayFunction other listed
    (Prod.mk.inj (Except.ok.inj split)).1

/-- A relay call makes itself and nothing else: it is neither a proposal nor a call of the owner. -/
theorem Executes.of_relayCalldata {contracts : Contracts} {state after : State}
    {sender target : Address} {data : Bytes} {history : List Execution} {encoded : EncodedRequest}
    {policy : AccountPolicy} {set : SignatureSet}
    (spelled : encoded.relayCalldata policy set = .ok data)
    (made : Executes contracts state [⟨sender, target, data⟩] history after) :
    ∃ execution, history = [execution] ∧ execution.sender = encoded.sender
      ∧ contracts.catalog.byTypeHash? encoded.typeHash = some execution.operation := by
  obtain ⟨signature, signatures, relayFunction, dynamic, rfl⟩ :=
    EncodedRequest.relayCalldata_eq_ok spelled
  have selector : ∀ {selector arguments}, splitSelector (Abi.encodeCall signature
      [encoded.toAbi, signatures]) = .ok (selector, arguments) →
        selector = Abi.functionSelector signature := by
    intro selector arguments split
    rw [splitSelector_encodeCall] at split
    exact (Prod.mk.inj (Except.ok.inj split)).1.symm
  cases made with
  | relayed decoded known accepted later =>
    obtain ⟨thresholdPath, path⟩ := RelayCall.pathOf?_isSome relayFunction
    rw [RelayCall.decode_encodeCall path] at decoded
    obtain ⟨request, read, decoded⟩ := bind_eq_ok.1 decoded
    obtain ⟨_, -, decoded⟩ := bind_eq_ok.1 decoded
    cases decoded
    obtain ⟨typeHash, sameSender⟩ := RelayCall.readRequest_header dynamic read
    cases later
    exact ⟨_, rfl, sameSender, typeHash ▸ known⟩
  | owned split accepted later =>
    obtain ⟨other, listed, same⟩ := executeOwned_selector accepted
    exact absurd ((selector split).symm.trans same)
      (relaySelectors_ne signature relayFunction other listed)
  | proposed split named held later =>
    exact absurd ((selector split).symm.trans named)
      (relaySelectors_ne signature relayFunction _ (by simp [otherSignatures]))

/-- A relay call that succeeds logs its own operation for its own sender. -/
theorem Transaction.entries_of_relayCalldata {contracts : Contracts} {transaction : Transaction}
    {encoded : EncodedRequest} {policy : AccountPolicy} {set : SignatureSet}
    (spelled : encoded.relayCalldata policy set = .ok transaction.data)
    (succeeded : transaction.succeeds contracts = true) :
    ∃ operation, contracts.catalog.byTypeHash? encoded.typeHash = some operation
      ∧ transaction.entries contracts = [(operation.key, encoded.sender)] := by
  unfold Transaction.succeeds at succeeded
  cases accepted : transaction.outcome contracts with
  | error halt =>
    rw [accepted] at succeeded
    cases succeeded
  | ok after =>
    obtain ⟨history, made⟩ := executes_of_execute accepted
    obtain ⟨execution, rfl, sender, known⟩ := made.of_relayCalldata spelled
    refine ⟨execution.operation, known, ?_⟩
    rw [Transaction.entries_of_executes accepted made, List.map_singleton, Execution.entry, sender]

end Chain

end GaslessRelay
