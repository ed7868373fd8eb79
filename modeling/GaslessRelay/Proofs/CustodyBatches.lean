import GaslessRelay.Proofs.CustodyCalls

/-!
Batches of the custody account against the same calls made one at a time. Main statement: unless a
call crashes the chain, a batch succeeds exactly if all of its calls would, with the same effect, and
otherwise it has none and tells why the first of them that fails does
(`batch_equals_calls_unless_crashed`).
-/

namespace GaslessRelay

open Outcome

/-- Calls made one after the other, until one fails. -/
def Custody.executeCalls (custody : Custody) : List BatchOperation → ClientM (List Receipt)
  | [] => pure []
  | operation :: rest => do
    let receipt ← custody.executeCall operation.target operation.payload
    let receipts ← custody.executeCalls rest
    return receipt :: receipts

namespace Chain

/-- The chain answers, and its block numbers do not run out while several transactions, one after
the other, become deep enough. -/
structure State.HasRoomFor (state : State) (count : Nat) (confirmations : UInt64) : Prop where
  unlocked : state.poisoned = false
  blocks : 1 < confirmations → state.block.toNat + count * confirmations.toNat < UInt64.size

variable {contracts : Contracts} {state : State} {confirmations : UInt64} {count : Nat}

theorem State.HasRoomFor.first (room : state.HasRoomFor (count + 1) confirmations) :
    state.HasRoom confirmations := by
  refine ⟨room.unlocked, fun deep => ?_⟩
  have whole := room.blocks deep
  rw [Nat.add_mul, Nat.one_mul] at whole
  omega

theorem State.HasRoomFor.rest (room : state.HasRoomFor (count + 1) confirmations)
    {records : Records} (follow : records.Follow state confirmations) {after : State}
    (unlocked : after.poisoned = false) :
    (after.withRecords records).HasRoomFor count confirmations := by
  refine ⟨unlocked, fun deep => ?_⟩
  have several : 1 < confirmations.toNat := UInt64.lt_iff_toNat_lt.1 deep
  have near := follow.near
  have whole := room.blocks deep
  rw [Nat.add_mul, Nat.one_mul] at whole
  show records.block.toNat + _ < _
  omega

theorem State.HasRoomFor.fewer {fewer : Nat} (room : state.HasRoomFor count confirmations)
    (less : fewer ≤ count) : state.HasRoomFor fewer confirmations := by
  refine ⟨room.unlocked, fun deep => ?_⟩
  have whole := room.blocks deep
  have part := Nat.mul_le_mul_right confirmations.toNat less
  omega

theorem State.HasRoomFor.one {operations : List BatchOperation}
    (room : state.HasRoomFor operations.length confirmations) (some : operations ≠ []) :
    state.HasRoom confirmations := by
  obtain ⟨first, rest, rfl⟩ := List.exists_cons_of_ne_nil some
  exact room.first

theorem executeBatch_of_records {operations : List BatchOperation} (records : Records) :
    executeBatch contracts (execute contracts) (state.withRecords records) operations
      = (·.withRecords records) <$> executeBatch contracts (execute contracts) state operations :=
  executeBatch_withRecords execute_withRecords state records operations

variable {custody : Custody} {operations : List BatchOperation}

/-- The calls up to one that halts are made, one at a time, and this one is made in the state that
they leave. -/
structure StopsAt (contracts : Contracts) (custody : Custody) (state : State)
    (operations : List BatchOperation) (failing : BatchOperation) (middle : State) (halt : Halt) :
    Prop where
  before : ∃ done rest receipts, operations = done ++ failing :: rest ∧
    (custody.executeCalls done).Yields (ledger contracts) state (.ok receipts) middle
  halts : execute contracts middle contracts.custody failing.target failing.payload = .error halt

theorem yields_executeCalls (own : custody.address = contracts.custody)
    (small : ∀ operation ∈ operations, (Custody.proposeCalldata operation.target operation.payload
      .direct).length < Text.wordLimit)
    (room : state.HasRoomFor operations.length custody.confirmations) {after : State}
    (executed : executeBatch contracts (execute contracts) state operations = .ok after) :
    ∃ receipts records, (custody.executeCalls operations).Yields (ledger contracts) state
      (.ok receipts) (after.withRecords records) := by
  -- Each call starts from the records that the calls before it left.
  induction operations generalizing state after with
  | nil =>
    cases executed
    exact ⟨[], state.records, ClientM.yields_pure []⟩
  | cons operation rest ih =>
    rw [executeBatch_cons] at executed
    obtain ⟨next, first, others⟩ := bind_eq_ok.1 executed
    have settles := Custody.settles_executeCall own room.first (small _ List.mem_cons_self)
    rw [first] at settles
    cases settles with
    | @succeeded _ receipt records ends success follow =>
      have later : executeBatch contracts (execute contracts) (next.withRecords records) rest
          = .ok (after.withRecords records) := by
        rw [executeBatch_of_records, others, map_ok]
      have unlocked : next.poisoned = false := (poisoned_of_execute first).trans room.unlocked
      obtain ⟨receipts, last, continued⟩ :=
        ih (fun other member => small other (List.mem_cons_of_mem _ member))
          (room.rest follow unlocked) later
      exact ⟨receipt :: receipts, last, ends.bind (continued.bind (ClientM.yields_pure _))⟩

/-- The calls end as the first one that halts does. -/
theorem exists_stopsAt (own : custody.address = contracts.custody)
    (small : ∀ operation ∈ operations, (Custody.proposeCalldata operation.target operation.payload
      .direct).length < Text.wordLimit)
    (room : state.HasRoomFor operations.length custody.confirmations) {halt : Halt}
    (halted : executeBatch contracts (execute contracts) state operations = .error halt) :
    ∃ failing middle, StopsAt contracts custody state operations failing middle halt ∧
      Settles contracts custody.confirmations
        (custody.executeCall failing.target failing.payload) middle (.error halt) ∧
      (∀ error reached, (custody.executeCall failing.target failing.payload).Yields
          (ledger contracts) middle (.error error) reached →
        (custody.executeCalls operations).Yields (ledger contracts) state (.error error) reached) ∧
      ∀ reached, (custody.executeCall failing.target failing.payload).Stalls (ledger contracts)
          middle reached →
        (custody.executeCalls operations).Stalls (ledger contracts) state reached := by
  induction operations generalizing state with
  | nil => cases halted
  | cons operation rest ih =>
    have settles := Custody.settles_executeCall own room.first (small _ List.mem_cons_self)
    rw [executeBatch_cons] at halted
    cases first : execute contracts state contracts.custody operation.target operation.payload with
    | error other =>
      rw [first] at halted settles
      cases halted
      exact ⟨operation, state, ⟨⟨[], rest, [], rfl, ClientM.yields_pure []⟩, first⟩, settles,
        fun _ _ ends => ends.bind_error, fun _ stalls => stalls.bind _⟩
    | ok next =>
      rw [first] at halted settles
      cases settles with
      | @succeeded _ receipt records ends success follow =>
        have later : executeBatch contracts (execute contracts) (next.withRecords records) rest
            = .error halt := by
          rw [executeBatch_of_records]
          exact map_eq_error.2 halted
        have unlocked : next.poisoned = false := (poisoned_of_execute first).trans room.unlocked
        obtain ⟨failing, middle, ⟨⟨done, others, receipts, rfl, made⟩, halts⟩, settles, fails,
            stalls⟩ :=
          ih (fun other member => small other (List.mem_cons_of_mem _ member))
            (room.rest follow unlocked) later
        refine ⟨failing, middle, ⟨⟨operation :: done, others, receipt :: receipts, rfl,
          ends.bind (made.bind (ClientM.yields_pure _))⟩, halts⟩, settles, ?_, ?_⟩
        · exact fun error reached ended => ends.bind (fails error reached ended).bind_error
        · exact fun reached stalled => ends.bind_stalls ((stalls reached stalled).bind _)

/-- Calls that are all made have the effect of the batch. -/
theorem executeBatch_of_executeCalls (own : custody.address = contracts.custody)
    (small : ∀ operation ∈ operations, (Custody.proposeCalldata operation.target operation.payload
      .direct).length < Text.wordLimit)
    (room : state.HasRoomFor operations.length custody.confirmations) {receipts : List Receipt}
    {middle : State} (made : (custody.executeCalls operations).Yields (ledger contracts) state
      (.ok receipts) middle) :
    ∃ after records, executeBatch contracts (execute contracts) state operations = .ok after ∧
      middle = after.withRecords records := by
  cases executed : executeBatch contracts (execute contracts) state operations with
  | ok after =>
    obtain ⟨receipts, records, called⟩ := yields_executeCalls own small room executed
    exact ⟨after, records, rfl, (made.unique called).2⟩
  | error halt =>
    obtain ⟨failing, reached, -, settles, fails, stalls⟩ := exists_stopsAt own small room executed
    cases settles with
    | failed ends follow => cases (made.unique (fails _ _ ends)).1
    | crashed stalled => exact absurd made (stalls _ stalled).not_yields

/-- The first call that halts, made in its turn, halts the batch too. -/
theorem StopsAt.executeBatch_eq (own : custody.address = contracts.custody)
    (small : ∀ operation ∈ operations, (Custody.proposeCalldata operation.target operation.payload
      .direct).length < Text.wordLimit)
    (room : state.HasRoomFor operations.length custody.confirmations) {failing : BatchOperation}
    {middle : State} {halt : Halt}
    (stops : StopsAt contracts custody state operations failing middle halt) :
    executeBatch contracts (execute contracts) state operations = .error halt := by
  obtain ⟨⟨done, rest, receipts, rfl, made⟩, halts⟩ := stops
  obtain ⟨after, records, executed, rfl⟩ := executeBatch_of_executeCalls own
    (fun operation member => small operation (List.mem_append_left _ member))
    (room.fewer (by simp)) made
  rw [execute_withRecords] at halts
  have first := map_eq_error.1 halts
  unfold executeBatch at executed ⊢
  rw [List.foldlM_append, executed, ok_bind, List.foldlM_cons, first]
  rfl

/-- A batch ends as its calls do when they are made one at a time: either all succeed and both leave
the same state but for the records of the chain, or the batch moves only these records and its
failure is that of the first call that fails, which carries the reason with which the execution of
that call stopped. -/
structure EndsAlike (contracts : Contracts) (custody : Custody) (state : State)
    (operations : List BatchOperation) (batch : Except RelayError Receipt) (after : State)
    (calls : Except RelayError (List Receipt)) (reached : State) : Prop where
  ofBatch : (custody.executeBatch operations).Yields (ledger contracts) state batch after
  ofCalls : (custody.executeCalls operations).Yields (ledger contracts) state calls reached
  succeeds : (∃ receipt, batch = .ok receipt) ↔ ∃ receipts, calls = .ok receipts
  same : (∃ receipt, batch = .ok receipt) → ∃ records, after = reached.withRecords records
  failed : ∀ error, batch = .error error →
    (∃ records, after = state.withRecords records) ∧ calls = .error error ∧
    ∃ failing middle revert,
      StopsAt contracts custody state operations failing middle (.reverted revert) ∧
      (custody.executeCall failing.target failing.payload).Yields (ledger contracts) middle
        (.error error) reached ∧
      error = .ofRevert revert.reason

section

variable (own : custody.address = contracts.custody) (fits : custody.Fits operations)
  (room : state.HasRoomFor operations.length custody.confirmations)

include own fits room

/-- Some call halts in its turn exactly if the batch halts so. -/
theorem exists_stopsAt_iff {halt : Halt} :
    (∃ failing middle, StopsAt contracts custody state operations failing middle halt) ↔
      executeBatch contracts (execute contracts) state operations = .error halt := by
  constructor
  · rintro ⟨failing, middle, stops⟩
    exact stops.executeBatch_eq own fits.single room
  · intro halted
    obtain ⟨failing, middle, stops, -⟩ := exists_stopsAt own fits.single room halted
    exact ⟨failing, middle, stops⟩

variable (helper : custody.multiSend = contracts.multiSend) (some : operations ≠ [])

include helper some

theorem endsAlike_of_ok {next : State}
    (executed : executeBatch contracts (execute contracts) state operations = .ok next) :
    ∃ batch after calls reached,
      EndsAlike contracts custody state operations batch after calls reached := by
  have settles := Custody.settles_executeBatch own helper (room.one some) some fits
  obtain ⟨receipts, last, called⟩ := yields_executeCalls own fits.single room executed
  rw [executed] at settles
  cases settles with
  | @succeeded _ receipt records ends success follow =>
    refine ⟨_, _, _, _, ends, called, ⟨fun _ => ⟨receipts, rfl⟩, fun _ => ⟨receipt, rfl⟩⟩,
      fun _ => ⟨records, rfl⟩, ?_⟩
    intro error impossible
    cases impossible

theorem endsAlike_of_reverted {revert : Revert}
    (executed : executeBatch contracts (execute contracts) state operations
      = .error (.reverted revert)) :
    ∃ batch after calls reached,
      EndsAlike contracts custody state operations batch after calls reached := by
  have settles := Custody.settles_executeBatch own helper (room.one some) some fits
  obtain ⟨failing, middle, stops, callSettles, fails, -⟩ :=
    exists_stopsAt own fits.single room executed
  rw [executed] at settles
  cases settles with
  | @failed _ records ends follow =>
    cases callSettles with
    | @failed _ callRecords callEnds callFollow =>
      refine ⟨_, _, _, _, ends, fails _ _ callEnds, ⟨?_, ?_⟩, ?_, ?_⟩
      · rintro ⟨_, impossible⟩
        cases impossible
      · rintro ⟨_, impossible⟩
        cases impossible
      · rintro ⟨_, impossible⟩
        cases impossible
      · intro error same
        cases same
        exact ⟨⟨records, rfl⟩, rfl, failing, middle, revert, stops, callEnds, rfl⟩

theorem stalls_of_crashed
    (executed : executeBatch contracts (execute contracts) state operations = .error .crashed) :
    ∃ records reached,
      (custody.executeBatch operations).Stalls (ledger contracts) state
        (state.poison.withRecords records) ∧
      (custody.executeCalls operations).Stalls (ledger contracts) state reached ∧
      reached.poisoned = true := by
  have settles := Custody.settles_executeBatch own helper (room.one some) some fits
  obtain ⟨failing, middle, -, callSettles, -, stalls⟩ :=
    exists_stopsAt own fits.single room executed
  rw [executed] at settles
  cases settles with
  | @crashed records stalled =>
    cases callSettles with
    | @crashed callRecords callStalled => exact ⟨records, _, stalled, stalls _ callStalled, rfl⟩

end

/-- A batch of the custody account ends as its calls do when they are made one at a time, unless one
of them crashes the chain in its turn. Neither the batch nor the calls end then, and both leave a
chain that answers no more, of which the batch has moved only the records. -/
theorem batch_equals_calls_unless_crashed (contracts : Contracts) (state : State)
    {custody : Custody} (own : custody.address = contracts.custody)
    (helper : custody.multiSend = contracts.multiSend) {operations : List BatchOperation}
    (some : operations ≠ []) (fits : custody.Fits operations)
    (room : state.HasRoomFor operations.length custody.confirmations) :
    let crashes :=
      ∃ failing middle, StopsAt contracts custody state operations failing middle .crashed
    ((∃ batch after calls reached,
        EndsAlike contracts custody state operations batch after calls reached) ↔ ¬crashes) ∧
      (crashes → ∃ records reached,
        (custody.executeBatch operations).Stalls (ledger contracts) state
          (state.poison.withRecords records) ∧
        (custody.executeCalls operations).Stalls (ledger contracts) state reached ∧
        reached.poisoned = true) := by
  intro crashes
  have crashes_iff : crashes ↔ _ := exists_stopsAt_iff own fits room
  rcases executed : executeBatch contracts (execute contracts) state operations with
    (revert | _) | next
  · have finishes : ¬crashes := by
      intro crashed
      cases executed.symm.trans (crashes_iff.1 crashed)
    have ends := endsAlike_of_reverted own fits room helper some executed
    exact ⟨iff_of_true ends finishes, fun crashed => absurd crashed finishes⟩
  · have stall := stalls_of_crashed own fits room helper some executed
    refine ⟨iff_of_false ?_ (not_not.2 (crashes_iff.2 executed)), fun _ => stall⟩
    rintro ⟨batch, after, calls, reached, alike⟩
    obtain ⟨records, final, stalled, -⟩ := stall
    exact stalled.not_yields alike.ofBatch
  · have finishes : ¬crashes := by
      intro crashed
      cases executed.symm.trans (crashes_iff.1 crashed)
    have ends := endsAlike_of_ok own fits room helper some executed
    exact ⟨iff_of_true ends finishes, fun crashed => absurd crashed finishes⟩

/-- A type is registered twice, the second time by a proposal within the batch. -/
theorem batch_equals_calls_duplicate :
    let burn : OperationType := ⟨"BurnToken", [.sender, .nonce, ⟨"tokenId", .uint 256⟩], 0, 0⟩
    let contracts : Contracts := ⟨1, 1, 2, 3, ⟨[burn]⟩, ⟨"Relay", "1", 1, 1⟩⟩
    let custody : Custody := ⟨2, 3, 3⟩
    let register := Registration.registerCalldata burn
    let operations : List BatchOperation :=
      [⟨.delegated, 1, register⟩, ⟨.direct, 2, Custody.proposeCalldata 1 register .direct⟩]
    let duplicate : RelayError := .alreadyRegistered "Registry: type already registered"
    ∃ after reached,
      (custody.executeBatch operations).Yields (ledger contracts) {} (.error duplicate) after ∧
      (custody.executeCalls operations).Yields (ledger contracts) {} (.error duplicate) reached ∧
      ∃ records, after = ({} : State).withRecords records := by
  intro burn contracts custody register operations duplicate
  have fits : custody.Fits operations := by
    unfold Custody.Fits
    decide +kernel
  have room : ({} : State).HasRoomFor operations.length custody.confirmations :=
    ⟨rfl, fun _ => by decide⟩
  have stopped : (fun _ => ()) <$> executeBatch contracts (execute contracts) {} operations
      = .error (.reverted .alreadyRegistered) := by
    decide +kernel
  have finishes : ¬∃ failing middle,
      StopsAt contracts custody {} operations failing middle .crashed := by
    rintro ⟨failing, middle, stops⟩
    have crashed := stops.executeBatch_eq rfl fits.single room
    rw [map_eq_error.1 stopped] at crashed
    cases crashed
  have settles := @Custody.settles_executeBatch contracts {} custody rfl rfl
    ⟨rfl, fun _ => by decide⟩ operations (by simp [operations]) fits
  rw [map_eq_error.1 stopped] at settles
  obtain ⟨batch, after, calls, reached, alike⟩ := (@batch_equals_calls_unless_crashed contracts {}
    custody rfl rfl operations (by simp [operations]) fits room).1.2 finishes
  cases settles with
  | failed ends follow =>
    have same : batch = .error duplicate := (alike.ofBatch.unique ends).1
    obtain ⟨kept, calledSame, -⟩ := alike.failed duplicate same
    have ended := alike.ofBatch
    have called := alike.ofCalls
    rw [same] at ended
    rw [calledSame] at called
    exact ⟨after, reached, ended, called, kept⟩

/-- The calldata of edits that says there are more of them than fit into memory. -/
def hugeEdits : Bytes :=
  selectorBytes (Abi.functionSelector Dispatch.applyEditsSignature)
    ++ (Abi.numberWord 32 ++ Abi.numberWord (UInt64.size - 1))

/-- Neither the batch of one call that crashes the chain nor the call alone ever ends. -/
theorem batch_never_ends_for_huge_edits :
    let contracts : Contracts := ⟨1, 1, 2, 3, ⟨[]⟩, ⟨"Relay", "1", 1, 1⟩⟩
    let custody : Custody := ⟨2, 3, 3⟩
    let operations : List BatchOperation := [⟨.direct, 1, hugeEdits⟩]
    (∀ result after,
      ¬(custody.executeBatch operations).Yields (ledger contracts) {} result after) ∧
    ∀ result after,
      ¬(custody.executeCalls operations).Yields (ledger contracts) {} result after := by
  intro contracts custody operations
  have fits : custody.Fits operations := by
    unfold Custody.Fits
    decide +kernel
  have room : ({} : State).HasRoomFor operations.length custody.confirmations :=
    ⟨rfl, fun _ => by decide⟩
  have crashed : (fun _ => ()) <$> executeBatch contracts (execute contracts) {} operations
      = .error .crashed := by
    decide +kernel
  obtain ⟨records, reached, batch, calls, -⟩ := stalls_of_crashed rfl fits room rfl
    (List.cons_ne_nil _ _) (map_eq_error.1 crashed)
  exact ⟨fun _ _ => batch.not_yields, fun _ _ => calls.not_yields⟩

end Chain

end GaslessRelay
