import GaslessRelay.Proofs.CustodyBatches
import GaslessRelay.Proofs.OwnedCalls
import GaslessRelay.Proofs.TableChanges

/-!
Registration of operation types. A request to the registry is one call or a batch of calls, and
either way it is a fold of changes of the registry. Main statement: all changes of a request are
made, by one transaction, exactly if the request is sound, and a registration is undone by the
unregistration of its type hashes (`registration_all_or_nothing`).
-/

namespace GaslessRelay

open Outcome

namespace Batch

theorem length_encodeOne_le {operation other : BatchOperation}
    (shorter : operation.payload.length ≤ other.payload.length) :
    (encodeOne operation).length ≤ (encodeOne other).length := by
  rw [length_encodeOne, length_encodeOne, encodedLength, encodedLength]
  omega

end Batch

theorem Custody.Fits.of_le {custody : Custody} {operations others : List BatchOperation}
    (fits : custody.Fits operations)
    (shorter : (others.flatMap Batch.encodeOne).length
      ≤ (operations.flatMap Batch.encodeOne).length) : custody.Fits others := by
  unfold Fits batchCalldata at fits ⊢
  rw [length_proposeCalldata, Batch.length_multiSendCalldata] at fits ⊢
  unfold Abi.padding at fits ⊢
  omega

namespace Registration

open Chain

/-- The calls of a request to the registry. -/
def calls (registry : Address) (requests : List Bytes) : List BatchOperation :=
  requests.map fun data => ⟨.direct, registry, data⟩

def entry (operation : OperationType) : Hash × Option String :=
  (operation.typeHash, some operation.typeString)

def removal (typeHash : Hash) : Hash × Option String := (typeHash, none)

theorem map_fst_entry (operations : List OperationType) :
    (operations.map entry).map Prod.fst = operations.map OperationType.typeHash :=
  List.map_map

theorem map_fst_removal (typeHashes : List Hash) :
    (typeHashes.map removal).map Prod.fst = typeHashes := by
  rw [List.map_map]
  exact List.map_id _

variable {contracts : Contracts} {state : State} {custody : Custody}

/-- Calldata asks the registry for a change. -/
def Asks (contracts : Contracts) (present : Bool) (revert : Revert) (data : Bytes)
    (change : Hash × Option String) : Prop :=
  ∀ state : State, Chain.execute contracts state contracts.custody contracts.relay data
    = state.withRegistered
      <$> Table.change present (fun _ => .reverted revert) state.registered change

theorem asks_registerCalldata {operation : OperationType}
    (small : (registerCalldata operation).length < Text.wordLimit) :
    Asks contracts false .alreadyRegistered (registerCalldata operation) (entry operation) := by
  intro state
  rw [execute_registerCalldata small]
  unfold Table.change entry
  cases state.registered.contains operation.typeHash <;> rfl

theorem asks_unregisterCalldata (typeHash : Hash) :
    Asks contracts true .notRegistered (unregisterCalldata typeHash) (removal typeHash) := by
  intro state
  rw [execute_unregisterCalldata]
  unfold Table.change removal
  cases state.registered.contains typeHash <;> rfl

theorem executeBatch_calls {present : Bool} {revert : Revert} {requests : List Bytes}
    {changes : List (Hash × Option String)}
    (asks : List.Forall₂ (Asks contracts present revert) requests changes) (state : State) :
    executeBatch contracts (Chain.execute contracts) state (calls contracts.relay requests)
      = state.withRegistered
        <$> changes.foldlM (Table.change present fun _ => Halt.reverted revert)
          state.registered := by
  induction asks generalizing state with
  | nil => rfl
  | @cons data change requests changes first others ih =>
    rw [calls, List.map_cons, executeBatch_cons, first state, List.foldlM_cons]
    cases made : Table.change present (fun _ => Halt.reverted revert) state.registered change with
    | error halt => rfl
    | ok table => exact ih (state.withRegistered table)

theorem settles_execute (own : custody.address = contracts.custody)
    (helper : custody.multiSend = contracts.multiSend) (room : state.HasRoom custody.confirmations)
    {requests : List Bytes} (some : requests ≠ [])
    (fits : custody.Fits (calls contracts.relay requests)) :
    Settles contracts custody.confirmations (execute custody contracts.relay requests) state
      (executeBatch contracts (Chain.execute contracts) state (calls contracts.relay requests)) := by
  cases requests with
  | nil => exact absurd rfl some
  | cons first others =>
    cases others with
    | nil =>
      have small := fits.single ⟨.direct, contracts.relay, first⟩ List.mem_cons_self
      have settles := Custody.settles_executeCall own room small
      rwa [← executeBatch_singleton (Chain.execute contracts) state
        ⟨.direct, contracts.relay, first⟩] at settles
    | cons second rest =>
      have batched : calls contracts.relay (first :: second :: rest) ≠ [] := List.cons_ne_nil _ _
      exact Custody.settles_executeBatch own helper room batched fits

/-- How a request to the registry ends: all of its changes were made by one transaction, exactly if
the request is sound, and otherwise nothing was. -/
structure AllOrNothing (confirmations : UInt64) (state : State)
    (changes : List (Hash × Option String)) (sound : Prop) (refusal : RelayError)
    (outcome : Except RelayError Receipt) (after : State) : Prop where
  succeeds : (∃ receipt, outcome = .ok receipt) ↔ sound
  made : sound → ∃ table records,
    after = (state.withRegistered table).withRecords records ∧
    records.Follow state confirmations ∧ (∀ change ∈ changes, table.get? change.1 = change.2) ∧
    ∀ key ∉ changes.map Prod.fst, table.get? key = state.registered.get? key
  refused : changes ≠ [] → ¬sound → outcome = .error refusal ∧
    ∃ records, after = state.withRecords records
  empty : changes = [] → outcome = .error (.codec .emptyBatch) ∧ after = state

theorem allOrNothing_execute (own : custody.address = contracts.custody)
    (helper : custody.multiSend = contracts.multiSend) (room : state.HasRoom custody.confirmations)
    {present : Bool} {revert : Revert} {requests : List Bytes}
    {changes : List (Hash × Option String)}
    (asks : List.Forall₂ (Asks contracts present revert) requests changes)
    (flips : ∀ change ∈ changes, change.2.isSome = !present)
    (fits : custody.Fits (calls contracts.relay requests)) :
    ∃ outcome after,
      (execute custody contracts.relay requests).Yields (ledger contracts) state outcome after ∧
      AllOrNothing custody.confirmations state changes
        (changes ≠ [] ∧ (changes.map Prod.fst).Nodup ∧
          ∀ key ∈ changes.map Prod.fst, state.registered.contains key = present)
        (.ofRevert revert.reason) outcome after := by
  by_cases some : changes = []
  · subst some
    cases asks
    refine ⟨_, _, ClientM.yields_known _, ⟨?_, fun sound => absurd rfl sound.1⟩, ?_, ?_,
      fun _ => ⟨rfl, rfl⟩⟩
    · rintro ⟨_, impossible⟩
      cases impossible
    · exact fun sound => absurd rfl sound.1
    · exact fun some => absurd rfl some
  · have someRequests : requests ≠ [] := by
      rintro rfl
      cases asks
      exact some rfl
    have settles := settles_execute own helper room someRequests fits
    rw [executeBatch_calls asks] at settles
    by_cases sound : (changes.map Prod.fst).Nodup ∧
        ∀ key ∈ changes.map Prod.fst, state.registered.contains key = present
    · rw [Table.foldlM_change sound.1 sound.2] at settles
      cases settles with
      | @succeeded _ receipt records ends success follow =>
        refine ⟨_, _, ends, ⟨fun _ => ⟨some, sound⟩, fun _ => ⟨receipt, rfl⟩⟩, fun _ => ?_, ?_, ?_⟩
        · exact ⟨_, records, rfl, follow, Table.get?_putAll_of_mem sound.1,
            fun key => Table.get?_putAll_of_notMem⟩
        · exact fun _ unsound => absurd ⟨some, sound⟩ unsound
        · exact fun none => absurd none some
    · rw [Table.foldlM_change_refused flips sound] at settles
      cases settles with
      | @failed _ records ends follow =>
        refine ⟨_, _, ends, ⟨?_, ?_⟩, ?_, ?_, ?_⟩
        · rintro ⟨_, impossible⟩
          cases impossible
        · exact fun claimed => absurd claimed.2 sound
        · exact fun claimed => absurd claimed.2 sound
        · exact fun _ _ => ⟨rfl, records, rfl⟩
        · exact fun none => absurd none some

theorem registerCalldata_longer (operation : OperationType) (typeHash : Hash) :
    (unregisterCalldata typeHash).length ≤ (registerCalldata operation).length := by
  simp [registerCalldata, unregisterCalldata, Abi.length_encodeCall, Abi.encode, Abi.encodeParts,
    Abi.assemble, Abi.heads, Abi.tails, AbiValue.isDynamic, Abi.encodeValue, AbiValue.ofSelector]
  omega

/-- The calls that undo a registration are no longer than those that made it. -/
theorem fits_unregister {registry : Address} {operations : List OperationType}
    (fits : custody.Fits (calls registry (operations.map registerCalldata))) :
    custody.Fits (calls registry ((operations.map OperationType.typeHash).map
      unregisterCalldata)) := by
  refine fits.of_le ?_
  clear fits
  induction operations with
  | nil => exact Nat.le_refl 0
  | cons operation rest ih =>
    have shorter := registerCalldata_longer operation operation.typeHash
    simp only [calls, List.map_cons, List.flatMap_cons, List.length_append] at ih ⊢
    exact Nat.add_le_add (Batch.length_encodeOne_le shorter) ih

theorem register_ends (own : custody.address = contracts.custody)
    (helper : custody.multiSend = contracts.multiSend) (room : state.HasRoom custody.confirmations)
    {operations : List OperationType}
    (fits : custody.Fits (calls contracts.relay (operations.map registerCalldata))) :
    ∃ outcome after,
      (register custody contracts.relay operations).Yields (ledger contracts) state outcome after ∧
      AllOrNothing custody.confirmations state (operations.map entry)
        (operations ≠ [] ∧ (operations.map OperationType.typeHash).Nodup ∧
          ∀ operation ∈ operations, state.registered.contains operation.typeHash = false)
        (.alreadyRegistered "Registry: type already registered") outcome after := by
  have small := fits.payload
  have asks : List.Forall₂ (Asks contracts false .alreadyRegistered)
      (operations.map registerCalldata) (operations.map entry) := by
    refine List.forall₂_map_left_iff.2 (List.forall₂_map_right_iff.2 (List.forall₂_same.2 ?_))
    intro operation member
    have payload := small _ (List.mem_map_of_mem (List.mem_map_of_mem member))
    exact asks_registerCalldata (Nat.lt_of_le_of_lt (Nat.le_add_right _ _) payload)
  have flips : ∀ change ∈ operations.map entry, change.2.isSome = !false := by
    intro change member
    obtain ⟨operation, -, rfl⟩ := List.mem_map.1 member
    rfl
  have refusal : RelayError.ofRevert Revert.alreadyRegistered.reason
      = .alreadyRegistered "Registry: type already registered" := by decide +kernel
  have ended := allOrNothing_execute own helper room asks flips fits
  rw [refusal, map_fst_entry] at ended
  simpa only [register, ne_eq, List.map_eq_nil_iff, List.forall_mem_map] using ended

theorem unregister_ends (own : custody.address = contracts.custody)
    (helper : custody.multiSend = contracts.multiSend) (room : state.HasRoom custody.confirmations)
    {typeHashes : List Hash}
    (fits : custody.Fits (calls contracts.relay (typeHashes.map unregisterCalldata))) :
    ∃ outcome after,
      (unregister custody contracts.relay typeHashes).Yields (ledger contracts) state outcome
        after ∧
      AllOrNothing custody.confirmations state (typeHashes.map removal)
        (typeHashes ≠ [] ∧ typeHashes.Nodup ∧
          ∀ typeHash ∈ typeHashes, state.registered.contains typeHash = true)
        (.notRegistered "Registry: type not registered") outcome after := by
  have asks : List.Forall₂ (Asks contracts true .notRegistered)
      (typeHashes.map unregisterCalldata) (typeHashes.map removal) := by
    refine List.forall₂_map_left_iff.2 (List.forall₂_map_right_iff.2 (List.forall₂_same.2 ?_))
    exact fun typeHash _ => asks_unregisterCalldata typeHash
  have flips : ∀ change ∈ typeHashes.map removal, change.2.isSome = !true := by
    intro change member
    obtain ⟨typeHash, -, rfl⟩ := List.mem_map.1 member
    rfl
  have refusal : RelayError.ofRevert Revert.notRegistered.reason
      = .notRegistered "Registry: type not registered" := by decide +kernel
  have ended := allOrNothing_execute own helper room asks flips fits
  rw [refusal, map_fst_removal] at ended
  simpa only [unregister, ne_eq, List.map_eq_nil_iff] using ended

/-- The unregistration of all type hashes that a registration entered leaves the registry as it was
before. -/
theorem unregister_undoes_register (own : custody.address = contracts.custody)
    (helper : custody.multiSend = contracts.multiSend)
    (room : state.HasRoomFor 2 custody.confirmations) {operations : List OperationType}
    (fits : custody.Fits (calls contracts.relay (operations.map registerCalldata)))
    {receipt : Receipt} {after : State}
    (registered : (register custody contracts.relay operations).Yields (ledger contracts) state
      (.ok receipt) after) :
    ∃ receipt' records,
      (unregister custody contracts.relay (operations.map OperationType.typeHash)).Yields
        (ledger contracts) after (.ok receipt') (state.withRecords records) := by
  obtain ⟨outcome, after', ends, ended⟩ := register_ends own helper room.first fits
  obtain ⟨rfl, rfl⟩ := ends.unique registered
  have sound := ended.succeeds.1 ⟨receipt, rfl⟩
  obtain ⟨table, records, rfl, follow, entered, kept⟩ := ended.made sound
  obtain ⟨some, distinct, absent⟩ := sound
  rw [map_fst_entry] at kept
  have known : ∀ typeHash ∈ operations.map OperationType.typeHash,
      table.contains typeHash = true := by
    intro typeHash member
    obtain ⟨operation, listed, rfl⟩ := List.mem_map.1 member
    exact Table.contains_of_get? (entered _ (List.mem_map_of_mem listed))
  have roomAfter : (state.withRegistered table |>.withRecords records).HasRoomFor 1
    custody.confirmations := room.rest follow room.unlocked
  obtain ⟨outcome', restored, ends', ended'⟩ :=
    unregister_ends own helper roomAfter.first (fits_unregister fits)
  have someHashes : operations.map OperationType.typeHash ≠ [] :=
    fun none => some (List.map_eq_nil_iff.1 none)
  have sound' := And.intro someHashes (And.intro distinct known)
  obtain ⟨receipt', rfl⟩ := ended'.succeeds.2 sound'
  obtain ⟨former, records', rfl, -, removed, others⟩ := ended'.made sound'
  have same : former = state.registered := by
    refine Table.ext_get? fun key => ?_
    -- Both registries have nothing at an entered type hash, and elsewhere nothing was moved.
    by_cases member : key ∈ operations.map OperationType.typeHash
    · have gone : former.get? key = none := removed _ (List.mem_map_of_mem member)
      obtain ⟨operation, listed, rfl⟩ := List.mem_map.1 member
      have free := Option.isSome_eq_false_iff.1 (absent operation listed)
      rw [gone, Option.isNone_iff_eq_none.1 free]
    · have outside : key ∉ ((operations.map OperationType.typeHash).map removal).map Prod.fst := by
        rw [map_fst_removal]
        exact member
      have after : former.get? key = table.get? key := others key outside
      rw [after, kept key member]
  subst same
  exact ⟨receipt', records', ends'⟩

end Registration

namespace Chain

open Registration (calls entry removal AllOrNothing registerCalldata unregisterCalldata)

/-- Operation types are registered all by one transaction, exactly if there are some, their type
hashes are distinct and none of these is registered; otherwise the registry stays as it is. Type
hashes are unregistered in the same way, exactly if all of them are registered. So the
unregistration of what a registration entered restores the registry. -/
theorem registration_all_or_nothing (contracts : Contracts) (state : State) {custody : Custody}
    (own : custody.address = contracts.custody) (helper : custody.multiSend = contracts.multiSend)
    (room : state.HasRoomFor 2 custody.confirmations) (operations : List OperationType)
    (fits : custody.Fits (calls contracts.relay (operations.map registerCalldata)))
    (typeHashes : List Hash)
    (fits' : custody.Fits (calls contracts.relay (typeHashes.map unregisterCalldata))) :
    (∃ outcome after,
      (Registration.register custody contracts.relay operations).Yields (ledger contracts) state
        outcome after ∧
      AllOrNothing custody.confirmations state (operations.map entry)
        (operations ≠ [] ∧ (operations.map OperationType.typeHash).Nodup ∧
          ∀ operation ∈ operations, state.registered.contains operation.typeHash = false)
        (.alreadyRegistered "Registry: type already registered") outcome after) ∧
    (∃ outcome after,
      (Registration.unregister custody contracts.relay typeHashes).Yields (ledger contracts) state
        outcome after ∧
      AllOrNothing custody.confirmations state (typeHashes.map removal)
        (typeHashes ≠ [] ∧ typeHashes.Nodup ∧
          ∀ typeHash ∈ typeHashes, state.registered.contains typeHash = true)
        (.notRegistered "Registry: type not registered") outcome after) ∧
    ∀ receipt after,
      (Registration.register custody contracts.relay operations).Yields (ledger contracts) state
        (.ok receipt) after →
      ∃ receipt' records,
        (Registration.unregister custody contracts.relay
          (operations.map OperationType.typeHash)).Yields (ledger contracts) after (.ok receipt')
            (state.withRecords records) :=
  ⟨Registration.register_ends own helper room.first fits,
    Registration.unregister_ends own helper room.first fits',
    fun _ _ registered =>
      Registration.unregister_undoes_register own helper room fits registered⟩

/-- Two types are registered at once, and unregistered again. -/
theorem registration_all_or_nothing_pair :
    let burn : OperationType := ⟨"BurnToken", [.sender, .nonce, ⟨"tokenId", .uint 256⟩], 0, 0⟩
    let mint : OperationType := ⟨"MintToken", [.sender, .nonce, ⟨"uri", .string⟩], 0, 0⟩
    let contracts : Contracts := ⟨1, 1, 2, 3, ⟨[burn]⟩, ⟨"Relay", "1", 1, 1⟩⟩
    let custody : Custody := ⟨2, 3, 3⟩
    (∃ after, (Registration.unregister custody 1 [burn.typeHash]).Yields (ledger contracts) {}
      (.error (.notRegistered "Registry: type not registered")) after) ∧
    ∃ receipt after receipt' records,
      (Registration.register custody 1 [burn, mint]).Yields (ledger contracts) {} (.ok receipt)
        after ∧
      after.registered.get? mint.typeHash = some mint.typeString ∧
      (Registration.unregister custody 1 [burn.typeHash, mint.typeHash]).Yields (ledger contracts)
        after (.ok receipt') (({} : State).withRecords records) := by
  intro burn mint contracts custody
  have fits : custody.Fits (calls 1 ([burn, mint].map registerCalldata)) := by
    unfold Custody.Fits
    decide +kernel
  have fits' : custody.Fits (calls 1 ([burn.typeHash].map unregisterCalldata)) := by
    unfold Custody.Fits
    decide +kernel
  have sound : [burn, mint] ≠ [] ∧ ([burn, mint].map OperationType.typeHash).Nodup ∧
      ∀ operation ∈ [burn, mint],
        ({} : State).registered.contains operation.typeHash = false :=
    ⟨List.cons_ne_nil _ _, by decide +kernel, fun _ _ => rfl⟩
  obtain ⟨⟨outcome, after, ends, ended⟩, ⟨outcome', after', ends', ended'⟩, restores⟩ :=
    @registration_all_or_nothing contracts {} custody rfl rfl ⟨rfl, fun _ => by decide⟩
      [burn, mint] fits [burn.typeHash] fits'
  obtain ⟨receipt, rfl⟩ := ended.succeeds.2 sound
  obtain ⟨table, records, rfl, -, entered, -⟩ := ended.made sound
  obtain ⟨receipt', records', restored⟩ := restores receipt _ ends
  obtain ⟨rfl, -⟩ := ended'.refused (List.cons_ne_nil _ _)
    (fun claimed => Bool.noConfusion (claimed.2.2 _ List.mem_cons_self))
  exact ⟨⟨after', ends'⟩, receipt, _, receipt', records', ends,
    entered (entry mint) (by simp), restored⟩

end Chain

end GaslessRelay
