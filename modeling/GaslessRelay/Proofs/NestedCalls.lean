import GaslessRelay.Proofs.BatchBlobs
import GaslessRelay.Proofs.ChainExecution
import Mathlib.Algebra.Order.BigOperators.Group.List
import Mathlib.Algebra.Order.Group.Nat

/-!
Nested calls. A call that a proposal holds is shorter than the proposal, so the limit on nesting is
never reached: an execution is that of its own calldata, whatever the limit was when it was nested
(`executeWithin_eq_execute`), and `execute` unfolds to itself (`execute_eq`).
-/

namespace GaslessRelay

open Outcome

namespace Abi

variable {data content : Bytes} {place : Nat}

theorem length_lt_of_bytesAt (read : bytesAt data place = .ok content) :
    content.length + 32 ≤ data.length := by
  unfold bytesAt at read
  obtain ⟨length, -, read⟩ := bind_eq_ok.1 read
  split at read
  · rename_i part sliced
    cases read
    obtain ⟨bound, taken⟩ := Bytes.slice?_eq_some.1 sliced
    have short := List.length_take_le length (data.drop (place + 32))
    rw [← taken] at short
    omega
  · cases read

theorem decodeTuple_cons {base offset : Nat} {type : AbiType} {rest : List AbiType}
    {values : List AbiValue} (read : decodeTuple data base (type :: rest) offset = .ok values) :
    ∃ place value others, decodeAt data type place = .ok value ∧
      decodeTuple data base rest (offset + slotSize type) = .ok others ∧
      values = value :: others := by
  obtain ⟨place, -, read⟩ := bind_eq_ok.1 read
  obtain ⟨value, first, read⟩ := bind_eq_ok.1 read
  obtain ⟨others, later, read⟩ := bind_eq_ok.1 read
  cases read
  exact ⟨place, value, others, first, later, rfl⟩

end Abi

namespace Chain

variable {contracts : Contracts}

theorem splitSelector_eq_ok {data arguments : Bytes} {selector : Selector}
    (split : splitSelector data = .ok (selector, arguments)) :
    arguments.length + 4 = data.length := by
  unfold splitSelector at split
  split_ifs at split with short
  cases split
  rw [List.length_drop]
  omega

/-- What the arguments of a proposal spell. -/
theorem decode_proposal {arguments : Bytes} {values : List AbiValue}
    (read : Abi.decode [.address, .bytes, .uint 8] arguments = .ok values) :
    ∃ target data mode, values = [.address target, .bytes data, .uint mode] ∧
      data.length + 32 ≤ arguments.length := by
  obtain ⟨_, _, _, readTarget, afterTarget, rfl⟩ := Abi.decodeTuple_cons read
  obtain ⟨_, _, _, readData, afterData, rfl⟩ := Abi.decodeTuple_cons afterTarget
  obtain ⟨_, _, _, readMode, nothing, rfl⟩ := Abi.decodeTuple_cons afterData
  cases nothing
  obtain ⟨target, -, rfl⟩ := map_eq_ok.1 readTarget
  obtain ⟨data, held, rfl⟩ := map_eq_ok.1 readData
  obtain ⟨mode, -, inRange⟩ := bind_eq_ok.1 readMode
  split_ifs at inRange
  cases inRange
  exact ⟨target, data, mode, rfl, Abi.length_lt_of_bytesAt held⟩

/-- What the arguments of a call of the helper spell. -/
theorem decode_blob {arguments : Bytes} {values : List AbiValue}
    (read : Abi.decode [.bytes] arguments = .ok values) :
    ∃ blob, values = [.bytes blob] ∧ blob.length + 32 ≤ arguments.length := by
  obtain ⟨_, _, _, readBlob, nothing, rfl⟩ := Abi.decodeTuple_cons read
  cases nothing
  obtain ⟨blob, held, rfl⟩ := map_eq_ok.1 readBlob
  exact ⟨blob, rfl, Abi.length_lt_of_bytesAt held⟩

/-- The calls that a proposal holds are shorter than its calldata, all of them together. What they
take up beside their payloads is at least the selector of the proposal and one length. -/
theorem sum_of_proposedCalls {arguments : Bytes} {calls : List BatchOperation}
    (held : proposedCalls contracts arguments = .ok calls) :
    (calls.map fun call => call.payload.length + 36).sum ≤ arguments.length + 4 := by
  unfold proposedCalls at held
  obtain ⟨values, read, held⟩ := bind_eq_ok.1 held
  obtain ⟨target, data, mode, rfl, shorter⟩ := decode_proposal (decoded_eq_ok.1 read)
  dsimp only at held
  split_ifs at held
  · cases held
    rw [List.map_singleton, List.sum_singleton]
    dsimp only
    omega
  · obtain ⟨⟨selector, inner⟩, split, held⟩ := bind_eq_ok.1 held
    have header := splitSelector_eq_ok split
    dsimp only at held
    split_ifs at held
    obtain ⟨values, packed, held⟩ := bind_eq_ok.1 held
    obtain ⟨blob, rfl, blobShorter⟩ := decode_blob (decoded_eq_ok.1 packed)
    dsimp only at held
    have filled := Batch.sum_of_decode (decoded_eq_ok.1 held)
    have within : (calls.map fun call => call.payload.length + 36).sum
        ≤ (calls.map Batch.encodedLength).sum := by
      refine List.sum_le_sum fun call _ => ?_
      rw [Batch.encodedLength, Batch.headerLength]
      omega
    omega

theorem proposedCalls_shorter {arguments : Bytes} {calls : List BatchOperation}
    (held : proposedCalls contracts arguments = .ok calls) :
    ∀ call ∈ calls, call.payload.length < arguments.length := by
  intro call member
  have total := sum_of_proposedCalls held
  have within := List.le_sum_of_mem
    (List.mem_map_of_mem (f := fun call : BatchOperation => call.payload.length + 36) member)
  omega

theorem executeBatch_congr {nested nested' : Nested} {calls : List BatchOperation} (state : State)
    (same : ∀ call ∈ calls, ∀ state, nested state contracts.custody call.target call.payload
      = nested' state contracts.custody call.target call.payload) :
    executeBatch contracts nested state calls = executeBatch contracts nested' state calls := by
  unfold executeBatch
  induction calls generalizing state with
  | nil => rfl
  | cons call rest ih =>
    rw [List.foldlM_cons, List.foldlM_cons, same call List.mem_cons_self]
    have others := fun next => ih next fun other member => same other (List.mem_cons_of_mem _ member)
    simp only [others]

theorem executeProposal_congr {nested nested' : Nested} (state : State) {arguments : Bytes}
    (same : ∀ state sender target data, data.length < arguments.length →
      nested state sender target data = nested' state sender target data) :
    executeProposal contracts nested state arguments
      = executeProposal contracts nested' state arguments := by
  unfold executeProposal
  cases held : proposedCalls contracts arguments with
  | error revert => rfl
  | ok calls =>
    have shorter := proposedCalls_shorter held
    exact executeBatch_congr state fun call member state =>
      same state _ _ _ (shorter call member)

theorem executeWithin_of_lt {limit other : Nat} {state : State} {sender target : Address}
    {data : Bytes} (enough : data.length < limit) (enough' : data.length < other) :
    executeWithin contracts limit state sender target data
      = executeWithin contracts other state sender target data := by
  -- Both limits leave room for the nested calls, which are shorter.
  induction limit generalizing other state sender target data with
  | zero => omega
  | succ limit ih =>
    obtain ⟨other, rfl⟩ : ∃ fewer, other = fewer + 1 := ⟨other - 1, by omega⟩
    unfold executeWithin
    cases split : splitSelector data with
    | error revert => rfl
    | ok parts =>
      obtain ⟨selector, arguments⟩ := parts
      have header := splitSelector_eq_ok split
      have same := @executeProposal_congr contracts (executeWithin contracts limit)
        (executeWithin contracts other) state arguments fun state sender target data shorter =>
          ih (by omega) (by omega)
      simp only [reverting_ok, ok_bind, same]

theorem executeWithin_eq_execute {limit : Nat} {state : State} {sender target : Address}
    {data : Bytes} (enough : data.length < limit) :
    executeWithin contracts limit state sender target data
      = execute contracts state sender target data :=
  executeWithin_of_lt enough (Nat.lt_succ_self _)

/-- An execution without a limit: a proposal executes the calls that it holds in the same way. -/
theorem execute_eq (state : State) (sender target : Address) (data : Bytes) :
    execute contracts state sender target data = (do
      let (selector, arguments) ← reverting (splitSelector data)
      if target = contracts.custody ∧ selector = Abi.functionSelector Custody.proposeSignature then
        executeProposal contracts (execute contracts) state arguments
      else if target ≠ contracts.relay then .error (.reverted (.noContract target))
      else
        match RelayCall.decode data with
        | .ok call => reverting (executeRelay contracts state call)
        | .error _ =>
          if sender ≠ contracts.custody then .error (.reverted .notOwner)
          else executeOwned state selector arguments) := by
  show executeWithin contracts (data.length + 1) state sender target data = _
  unfold executeWithin
  cases split : splitSelector data with
  | error revert => rfl
  | ok parts =>
    obtain ⟨selector, arguments⟩ := parts
    have header := splitSelector_eq_ok split
    have same := @executeProposal_congr contracts (executeWithin contracts data.length)
      (execute contracts) state arguments fun state sender target data shorter =>
        executeWithin_eq_execute (by omega)
    rw [reverting_ok, ok_bind, ok_bind]
    exact if_congr Iff.rfl same rfl

end Chain

end GaslessRelay
