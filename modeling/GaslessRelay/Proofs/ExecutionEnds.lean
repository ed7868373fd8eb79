import GaslessRelay.Proofs.NestedCalls

/-!
The end of executions. `Ends` tells without a limit on nesting how an execution ends: it is over
when the calls that it holds are, so what ends is a finite tree of calls. Main statement: every
execution ends, whatever its calldata, in one way and with few calls (`execution_ends`).
-/

namespace GaslessRelay.Chain

open Outcome

/-- The calldata is a proposal of the custody account with these arguments. -/
def IsProposal (contracts : Contracts) (target : Address) (data arguments : Bytes) : Prop :=
  target = contracts.custody ∧
    splitSelector data = .ok (Abi.functionSelector Custody.proposeSignature, arguments)

/-- Executes calldata that is no proposal, and so holds no further calls. -/
def executePlain (contracts : Contracts) (state : State) (sender target : Address)
    (data : Bytes) : Except Halt State := do
  let (selector, arguments) ← reverting (splitSelector data)
  if target ≠ contracts.relay then .error (.reverted (.noContract target))
  else
    match RelayCall.decode data with
    | .ok call => reverting (executeRelay contracts state call)
    | .error _ =>
      if sender ≠ contracts.custody then .error (.reverted .notOwner)
      else executeOwned state selector arguments

mutual

/-- How the execution of calldata ends, and after how many calls, itself included. -/
inductive Ends (contracts : Contracts) : State → (sender target : Address) → Bytes →
    (calls : Nat) → Except Halt State → Prop where
  | plain {state : State} {sender target : Address} {data : Bytes}
      (single : ∀ arguments, ¬IsProposal contracts target data arguments) :
      Ends contracts state sender target data 1 (executePlain contracts state sender target data)
  | refused {state : State} {sender target : Address} {data arguments : Bytes} {revert : Revert}
      (proposal : IsProposal contracts target data arguments)
      (unreadable : proposedCalls contracts arguments = .error revert) :
      Ends contracts state sender target data 1 (.error (.reverted revert))
  | proposal {state : State} {sender target : Address} {data arguments : Bytes}
      {held : List BatchOperation} {calls : Nat} {outcome : Except Halt State}
      (proposal : IsProposal contracts target data arguments)
      (holds : proposedCalls contracts arguments = .ok held)
      (all : EndsAll contracts state held calls outcome) :
      Ends contracts state sender target data (calls + 1) outcome

/-- How calls of the custody account end, one after the other until one of them fails. -/
inductive EndsAll (contracts : Contracts) : State → List BatchOperation → (calls : Nat) →
    Except Halt State → Prop where
  | done {state : State} : EndsAll contracts state [] 0 (.ok state)
  | failed {state : State} {call : BatchOperation} {rest : List BatchOperation} {calls : Nat}
      {halt : Halt}
      (first : Ends contracts state contracts.custody call.target call.payload calls
        (.error halt)) :
      EndsAll contracts state (call :: rest) calls (.error halt)
  | next {state after : State} {call : BatchOperation} {rest : List BatchOperation}
      {calls more : Nat} {outcome : Except Halt State}
      (first : Ends contracts state contracts.custody call.target call.payload calls (.ok after))
      (others : EndsAll contracts after rest more outcome) :
      EndsAll contracts state (call :: rest) (calls + more) outcome

end

variable {contracts : Contracts} {state : State} {sender target : Address} {data arguments : Bytes}

theorem execute_plain (single : ∀ arguments, ¬IsProposal contracts target data arguments) :
    execute contracts state sender target data
      = executePlain contracts state sender target data := by
  rw [execute_eq, executePlain]
  cases split : splitSelector data with
  | error revert => rfl
  | ok parts =>
    obtain ⟨selector, arguments⟩ := parts
    rw [reverting_ok, ok_bind, ok_bind]
    apply if_neg
    rintro ⟨own, propose⟩
    exact single arguments ⟨own, by rw [split, propose]⟩

theorem execute_isProposal (proposal : IsProposal contracts target data arguments) :
    execute contracts state sender target data
      = executeProposal contracts (execute contracts) state arguments := by
  obtain ⟨own, split⟩ := proposal
  rw [execute_eq, split, reverting_ok, ok_bind]
  exact if_pos ⟨own, rfl⟩

theorem IsProposal.length (proposal : IsProposal contracts target data arguments) :
    arguments.length + 4 = data.length := splitSelector_eq_ok proposal.2

/-- Calldata is read as a proposal in one way only. -/
theorem IsProposal.unique {other : Bytes} (proposal : IsProposal contracts target data arguments)
    (proposal' : IsProposal contracts target data other) : arguments = other := by
  have same := proposal.2.symm.trans proposal'.2
  simp only [Except.ok.injEq, Prod.mk.injEq, true_and] at same
  exact same

/-- An execution ends as `execute` says and in no other way. Each of its calls stands for 36 bytes
of the calldata, its own selector and length apart. -/
def EndsOnce (contracts : Contracts) (state : State) (sender target : Address) (data : Bytes) :
    Prop :=
  ∃ count, 36 * count ≤ data.length + 36 ∧ ∀ calls outcome,
    Ends contracts state sender target data calls outcome ↔
      calls = count ∧ outcome = execute contracts state sender target data

/-- The same holds of calls in a row, by induction on them. -/
theorem endsAll_once {held : List BatchOperation}
    (each : ∀ call ∈ held, ∀ state,
      EndsOnce contracts state contracts.custody call.target call.payload) (state : State) :
    ∃ count, 36 * count ≤ (held.map fun call => call.payload.length + 36).sum ∧
      ∀ calls outcome, EndsAll contracts state held calls outcome ↔
        calls = count ∧ outcome = executeBatch contracts (execute contracts) state held := by
  induction held generalizing state with
  | nil =>
    refine ⟨0, Nat.le_refl _, fun calls outcome => ⟨?_, ?_⟩⟩
    · rintro ⟨⟩
      exact ⟨rfl, rfl⟩
    · rintro ⟨rfl, rfl⟩
      exact .done
  | cons call rest ih =>
    obtain ⟨count, few, first⟩ := each call List.mem_cons_self state
    have others := ih fun other member => each other (List.mem_cons_of_mem _ member)
    have unfolded : executeBatch contracts (execute contracts) state (call :: rest)
        = (execute contracts state contracts.custody call.target call.payload >>= fun after =>
          executeBatch contracts (execute contracts) after rest) := List.foldlM_cons ..
    rw [List.map_cons, List.sum_cons, unfolded]
    cases ran : execute contracts state contracts.custody call.target call.payload with
    | error halt =>
      refine ⟨count, by omega, fun calls outcome => ⟨?_, ?_⟩⟩
      · rintro (_ | failed | ⟨next, others⟩)
        · exact ⟨((first _ _).1 failed).1, ((first _ _).1 failed).2.trans ran⟩
        · have impossible := ((first _ _).1 next).2.trans ran
          cases impossible
      · rintro ⟨rfl, rfl⟩
        exact .failed ((first _ _).2 ⟨rfl, ran.symm⟩)
    | ok after =>
      obtain ⟨more, fewMore, rest'⟩ := others after
      refine ⟨count + more, by omega, fun calls outcome => ⟨?_, ?_⟩⟩
      · rintro (_ | failed | ⟨next, later⟩)
        · have impossible := ((first _ _).1 failed).2.trans ran
          cases impossible
        · obtain ⟨rfl, same⟩ := (first _ _).1 next
          cases same.trans ran
          obtain ⟨rfl, rfl⟩ := (rest' _ _).1 later
          exact ⟨rfl, rfl⟩
      · rintro ⟨rfl, rfl⟩
        exact .next ((first _ _).2 ⟨rfl, ran.symm⟩) ((rest' _ _).2 ⟨rfl, rfl⟩)

/-- Every execution ends, by induction on the length of its calldata. -/
theorem endsOnce (state : State) (sender target : Address) (data : Bytes) :
    EndsOnce contracts state sender target data := by
  by_cases some : ∃ arguments, IsProposal contracts target data arguments
  · obtain ⟨arguments, proposal⟩ := some
    have size := proposal.length
    have executed := @execute_isProposal contracts state sender target data arguments proposal
    unfold executeProposal at executed
    cases read : proposedCalls contracts arguments with
    | error revert =>
      rw [read, reverting_error, error_bind] at executed
      refine ⟨1, by omega, fun calls outcome => ⟨?_, ?_⟩⟩
      · rintro (single | ⟨proposal', unreadable⟩ | ⟨proposal', holds, -⟩)
        · exact absurd proposal (single arguments)
        · rw [← proposal.unique proposal', read] at unreadable
          cases unreadable
          exact ⟨rfl, executed.symm⟩
        · rw [← proposal.unique proposal', read] at holds
          cases holds
      · rintro ⟨rfl, rfl⟩
        rw [executed]
        exact .refused proposal read
    | ok held =>
      rw [read, reverting_ok, ok_bind] at executed
      have total := sum_of_proposedCalls read
      have shorter := proposedCalls_shorter read
      obtain ⟨count, few, all⟩ := endsAll_once (fun call member state =>
        have := shorter call member
        endsOnce state contracts.custody call.target call.payload) state
      refine ⟨count + 1, by omega, fun calls outcome => ⟨?_, ?_⟩⟩
      · rintro (single | ⟨proposal', unreadable⟩ | ⟨proposal', holds, ends⟩)
        · exact absurd proposal (single arguments)
        · rw [← proposal.unique proposal', read] at unreadable
          cases unreadable
        · rw [← proposal.unique proposal', read] at holds
          cases holds
          obtain ⟨rfl, same⟩ := (all _ _).1 ends
          exact ⟨rfl, same.trans executed.symm⟩
      · rintro ⟨rfl, rfl⟩
        exact .proposal proposal read ((all _ _).2 ⟨rfl, executed⟩)
  · have single : ∀ arguments, ¬IsProposal contracts target data arguments :=
      fun arguments proposal => some ⟨arguments, proposal⟩
    have executed := @execute_plain contracts state sender target data single
    refine ⟨1, by omega, fun calls outcome => ⟨?_, ?_⟩⟩
    · rintro (_ | ⟨proposal, -⟩ | ⟨proposal, -, -⟩)
      · exact ⟨rfl, executed.symm⟩
      · exact absurd proposal (single _)
      · exact absurd proposal (single _)
    · rintro ⟨rfl, rfl⟩
      rw [executed]
      exact .plain single
termination_by data.length

/-- Every execution ends in one way, whatever its calldata holds. A call that a proposal holds is
shorter than the calldata of the proposal, and so are all of them together. -/
theorem execution_ends (contracts : Contracts) (state : State) (sender target : Address)
    (data : Bytes) :
    EndsOnce contracts state sender target data ∧
    ∀ arguments held, IsProposal contracts target data arguments →
      proposedCalls contracts arguments = .ok held →
        (∀ call ∈ held, call.payload.length < data.length) ∧
        (held.map fun call => call.payload.length).sum < data.length := by
  refine ⟨endsOnce state sender target data, ?_⟩
  intro arguments held proposal read
  have size := proposal.length
  constructor
  · intro call member
    have shorter := proposedCalls_shorter read call member
    omega
  · have total := sum_of_proposedCalls read
    rw [List.sum_map_add] at total
    cases held with
    | nil => simp; omega
    | cons call rest =>
      simp only [List.map_cons, List.sum_cons] at total ⊢
      omega

/-- A proposal whose second offset leads to its own target, so that the target is the length of what
it calls. -/
theorem execution_ends_overlapping :
    let contracts : Contracts := ⟨1, 1, 2, 3, ⟨[]⟩, ⟨"Relay", "1", 1, 1⟩⟩
    let arguments := wordBytes 64 ++ Bytes.zeros 64
    let data := selectorBytes (Abi.functionSelector Custody.proposeSignature) ++ arguments
    proposedCalls contracts arguments = .ok [⟨.direct, 64, Bytes.zeros 64⟩] ∧
      (Bytes.zeros 64).length < data.length ∧
      ∃ calls ≤ 3, Ends contracts {} 0 2 data calls (execute contracts {} 0 2 data) := by
  intro contracts arguments data
  have proposal : IsProposal contracts 2 data arguments := ⟨rfl, by decide +kernel⟩
  have read : proposedCalls contracts arguments = .ok [⟨.direct, 64, Bytes.zeros 64⟩] := by
    decide +kernel
  obtain ⟨⟨count, few, ends⟩, nested⟩ := execution_ends contracts {} 0 2 data
  have length : data.length = 100 := by decide +kernel
  exact ⟨read, (nested arguments _ proposal read).1 _ List.mem_cons_self, count, by omega,
    (ends _ _).2 ⟨rfl, rfl⟩⟩

end GaslessRelay.Chain
