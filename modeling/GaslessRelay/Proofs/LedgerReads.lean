import GaslessRelay.Proofs.SettledTransactions

/-!
What clients read of the chain. While no reads lag, the sequence number that is read is the live
counter (`RelayContext.yields_sequenceNumber`), and the policy that is read for an account tells
its owner set (`Custody.ownerSet_of_fetchPolicy`).
-/

namespace GaslessRelay

open Bytes (StandsAt)
open Chain

variable {contracts : Contracts} {state : State}

namespace Abi

theorem encode_word (word : Word) : encode [.uint word] = wordBytes word := by
  simp [encode, encodeParts, assemble, heads, tails, AbiValue.isDynamic, encodeValue]

theorem decodeUint_encode (word : Word) : decodeUint (encode [.uint word]) = .ok word := by
  rw [encode_word]
  exact wordAt_eq_ok (Bytes.standsAt_self _)

theorem addressAt_encode (address : Address) (word : Word) :
    addressAt (encode [.address address, .uint word]) 0 = .ok address := by
  have bytes : encode [.address address, .uint word]
      = wordBytes (address.setWidth 256) ++ wordBytes word := by
    simp [encode, encodeParts, assemble, heads, tails, AbiValue.isDynamic, encodeValue]
  rw [bytes]
  exact addressAt_eq_ok (Bytes.standsAt_self _).left

def addressWords (addresses : List Address) : Bytes :=
  addresses.flatMap fun address => wordBytes (address.setWidth 256)

theorem heads_addresses (addresses : List Address) (offset : Nat) :
    heads offset (encodeParts (addresses.map .address)) = addressWords addresses ∧
      tails (encodeParts (addresses.map .address)) = [] := by
  induction addresses with
  | nil => exact ⟨rfl, rfl⟩
  | cons address rest ih =>
    simp [encodeParts, heads, tails, AbiValue.isDynamic, encodeValue, ih, addressWords]

theorem encode_addresses (addresses : List Address) :
    encode [.array (addresses.map .address)]
      = numberWord 32 ++ (numberWord addresses.length ++ addressWords addresses) := by
  have allHeads := fun offset => (heads_addresses addresses offset).1
  have noTails := (heads_addresses addresses 0).2
  simp [encode, encodeParts, assemble, heads, tails, headLength, AbiValue.isDynamic, encodeValue,
    allHeads, noTails]

theorem mem_of_addressesAt {data : Bytes} {addresses read : List Address} {count offset : Nat}
    (stands : StandsAt (addressWords addresses) data offset) (within : count ≤ addresses.length)
    (decoded : addressesAt data count offset = .ok read) :
    ∀ address ∈ read, address ∈ addresses := by
  induction count generalizing addresses read offset with
  | zero =>
    cases decoded
    simp
  | succ count ih =>
    cases addresses with
    | nil => cases within
    | cons first rest =>
      have split : addressWords (first :: rest)
        = wordBytes (first.setWidth 256) ++ addressWords rest := rfl
      rw [split] at stands
      rw [addressesAt, addressAt_eq_ok stands.left, Outcome.ok_bind] at decoded
      obtain ⟨others, more, same⟩ := Outcome.bind_eq_ok.1 decoded
      cases same
      have restStands := stands.right
      rw [length_wordBytes] at restStands
      have inRest := ih restStands (Nat.le_of_succ_le_succ within) more
      intro address member
      rcases List.mem_cons.1 member with rfl | member
      · exact List.mem_cons_self
      · exact List.mem_cons_of_mem _ (inRest address member)

theorem mem_of_decodeAddresses {addresses read : List Address}
    (decoded : decodeAddresses (encode [.array (addresses.map .address)]) = .ok read) :
    ∀ address ∈ read, address ∈ addresses := by
  have whole := Bytes.standsAt_self (encode [.array (addresses.map .address)])
  nth_rewrite 1 [encode_addresses] at whole
  have start : offsetAt (encode [.array (addresses.map .address)]) 0 = .ok 32 :=
    offsetAt_eq_ok whole.left (by decide)
  unfold decodeAddresses at decoded
  rw [start, Outcome.ok_bind] at decoded
  obtain ⟨count, counted, decoded⟩ := Outcome.bind_eq_ok.1 decoded
  have behind := whole.right
  rw [length_numberWord] at behind
  have within : count ≤ addresses.length := by
    obtain ⟨word, atStart, counted⟩ := Outcome.bind_eq_ok.1 counted
    have same := (wordAt_eq_ok behind.left).symm.trans atStart
    cases same
    split at counted <;> cases counted
    rw [BitVec.toNat_ofNat]
    exact Nat.mod_le _ _
  have words := behind.right
  rw [length_numberWord] at words
  exact mem_of_addressesAt words within decoded

end Abi

namespace Chain

theorem yields_view {target : Address} {data answer : Bytes} (unlocked : state.poisoned = false)
    (viewed : view? contracts state target data = some (answer, state)) :
    (ClientM.query (.call target data)).Yields (ledger contracts) state (.ok answer) state := by
  refine ClientM.yields_query ((answer_call unlocked target data).trans ?_)
  unfold call
  rw [viewed]

theorem stalls_query {request : LedgerRequest} (poisoned : state.poisoned = true)
    (needed : request ≠ .chainId) :
    (ClientM.query request).Stalls (ledger contracts) state state :=
  ClientM.stalls_query (answer_of_poisoned poisoned needed)

theorem view?_getNonce (current : state.staleReads = 0) (sender : Address) :
    view? contracts state contracts.relay (Account.getNonceCalldata sender)
      = some (Abi.encode [.ofNat (state.nonce sender).toNat], state) := by
  have argument : Abi.addressAt (Abi.encode [.address sender, .ofNat 0]) 0 = .ok sender :=
    Abi.addressAt_encode sender _
  unfold view? Account.getNonceCalldata
  rw [splitSelector_encodeCall]
  simp [Except.toOption, argument, current]

theorem ownerSelectors_ne :
    Abi.functionSelector Custody.getOwnersSignature
        ≠ Abi.functionSelector Account.getNonceSignature ∧
      Abi.functionSelector Custody.getThresholdSignature
        ≠ Abi.functionSelector Account.getNonceSignature ∧
      Abi.functionSelector Custody.getThresholdSignature
        ≠ Abi.functionSelector Custody.getOwnersSignature := by
  decide +kernel

theorem splitSelector_selectorBytes (selector : Selector) :
    splitSelector (selectorBytes selector) = .ok (selector, []) := by
  have length := length_selectorBytes selector
  unfold splitSelector
  rw [if_neg (by omega), List.take_of_length_le (by omega), List.drop_eq_nil_of_le (by omega),
    selectorOfBytes_selectorBytes]

/-- An account without an owner set answers nothing about its owners. -/
theorem view?_getOwners (account : Address) :
    view? contracts state account
        (selectorBytes (Abi.functionSelector Custody.getOwnersSignature))
      = some (match state.ownerSets.get? account with
        | some set => Abi.encode [.array (set.owners.map .address)]
        | none => [], state) := by
  unfold view?
  rw [splitSelector_selectorBytes]
  simp only [Except.toOption, Option.bind_eq_bind, Option.bind_some, ownerSelectors_ne.1, and_false,
    if_false, if_true]
  rfl

theorem view?_getThreshold {account : Address} {set : OwnerSet}
    (owned : state.ownerSets.get? account = some set) :
    view? contracts state account
        (selectorBytes (Abi.functionSelector Custody.getThresholdSignature))
      = some (Abi.encode [.ofNat set.threshold.toNat], state) := by
  unfold view?
  rw [splitSelector_selectorBytes]
  simp [Except.toOption, ownerSelectors_ne.2.1, ownerSelectors_ne.2.2, owned]

end Chain

theorem RelayContext.yields_sequenceNumber {context : RelayContext}
    (unlocked : state.poisoned = false)
    (atRelay : context.config.relayAddress = contracts.relay) (current : state.staleReads = 0)
    (sender : Address) :
    (context.sequenceNumber sender).Yields (ledger contracts) state
      (.ok (state.nonce sender)) state := by
  have small := (state.nonce sender).toNat_lt_size
  have exact := Abi.toNat_uint64Word (state.nonce sender)
  unfold sequenceNumber
  rw [atRelay]
  refine (yields_view unlocked (view?_getNonce current sender)).bind ?_
  have decoded : Abi.decodeUint (Abi.encode [.ofNat (state.nonce sender).toNat])
      = .ok (BitVec.ofNat 256 (state.nonce sender).toNat) := Abi.decodeUint_encode _
  unfold ClientM.decoded
  rw [decoded]
  refine (ClientM.yields_known _).bind ?_
  rw [exact, if_pos small, UInt64.ofNat_toNat]
  exact ClientM.yields_pure _

namespace Custody

def ownersAnswer (set : OwnerSet) : Bytes := Abi.encode [.array (set.owners.map .address)]

theorem isEmpty_ownersAnswer (set : OwnerSet) : ¬(ownersAnswer set).isEmpty = true := by
  unfold ownersAnswer
  rw [Abi.encode_addresses, List.isEmpty_iff]
  intro empty
  have length := congrArg List.length empty
  rw [List.length_append, Abi.length_numberWord, List.length_nil] at length
  omega

theorem yields_owners {account : Address} {set : OwnerSet} (unlocked : state.poisoned = false)
    (owned : state.ownerSets.get? account = some set) :
    (ClientM.query (.call account
      (selectorBytes (Abi.functionSelector getOwnersSignature)))).Yields (ledger contracts) state
      (.ok (ownersAnswer set)) state := by
  have asked := yields_view unlocked (@view?_getOwners contracts state account)
  rw [owned] at asked
  exact asked

theorem yields_fetchPolicy {account : Address} {set : OwnerSet} {listed : List Address}
    (unlocked : state.poisoned = false) (owned : state.ownerSets.get? account = some set)
    (decoded : Abi.decodeAddresses (ownersAnswer set) = .ok listed) :
    (fetchPolicy account).Yields (ledger contracts) state
      (.ok (.threshold listed set.threshold)) state := by
  have small := set.threshold.toNat_lt_size
  have exact := Abi.toNat_uint64Word set.threshold
  have word : Abi.decodeUint (Abi.encode [.ofNat set.threshold.toNat])
      = .ok (BitVec.ofNat 256 set.threshold.toNat) := Abi.decodeUint_encode _
  refine (yields_owners unlocked owned).bind ?_
  rw [if_neg (isEmpty_ownersAnswer set)]
  unfold ClientM.decoded
  rw [decoded]
  refine (ClientM.yields_known _).bind ((yields_view unlocked (view?_getThreshold owned)).bind ?_)
  rw [word]
  refine (ClientM.yields_known _).bind ?_
  rw [exact, if_pos small, UInt64.ofNat_toNat]
  exact ClientM.yields_pure _

/-- No policy is read of a chain whose lock is poisoned. -/
theorem unlocked_of_fetchPolicy {account : Address} {result : Except RelayError AccountPolicy}
    {after : State} (read : (fetchPolicy account).Yields (ledger contracts) state result after) :
    state.poisoned = false := by
  cases unlocked : state.poisoned with
  | false => rfl
  | true =>
    exact absurd read ((stalls_query unlocked (by simp)).bind _).not_yields

/-- A policy with a threshold is read of an owner set: its owners are in the set, and its threshold
is that of the set. -/
theorem ownerSet_of_fetchPolicy {account : Address} {owners : List Address} {required : UInt64}
    {after : State} (read : (fetchPolicy account).Yields (ledger contracts) state
      (.ok (.threshold owners required)) after) :
    ∃ set, state.ownerSets.get? account = some set ∧ required = set.threshold ∧
      ∀ owner ∈ owners, owner ∈ set.owners := by
  have unlocked := unlocked_of_fetchPolicy read
  cases owned : state.ownerSets.get? account with
  | none =>
    have asked := yields_view unlocked (@view?_getOwners contracts state account)
    rw [owned] at asked
    have single : (fetchPolicy account).Yields (ledger contracts) state (.ok .singleKey) state :=
      asked.bind (ClientM.yields_pure _)
    cases (read.unique single).1
  | some set =>
    refine ⟨set, rfl, ?_⟩
    cases decoded : Abi.decodeAddresses (ownersAnswer set) with
    | error error =>
      have failed : (fetchPolicy account).Yields (ledger contracts) state (.error (.codec error))
          state := by
        refine (yields_owners unlocked owned).bind ?_
        rw [if_neg (isEmpty_ownersAnswer set)]
        unfold ClientM.decoded
        rw [decoded]
        exact (ClientM.yields_known _).bind_error
      cases (read.unique failed).1
    | ok listed =>
      cases (read.unique (yields_fetchPolicy unlocked owned decoded)).1
      exact ⟨rfl, Abi.mem_of_decodeAddresses decoded⟩

end Custody

end GaslessRelay
