import GaslessRelay.Proofs.LedgerReads
import GaslessRelay.Proofs.SignatureSets

/-!
The client's gate for accounts with several owners against the check of the chain. Both accept the
strictly ascending lists of owners' signatures that are as long as the threshold asks, but the gate
wants at least one signature (`AccountPolicy.selectPath_threshold_iff`) and the chain does not
(`Chain.checkSignatures_iff`). So they agree unless an account with no threshold gets no signature
(`policy_gate_agrees`).
-/

namespace GaslessRelay

open Bytes (StandsAt)
open Outcome (mapError_eq_ok)
open SignatureSet (Ascending)

namespace SignatureSet

theorem pairwise_of_strictlyAscending {signers : List Address}
    (sorted : strictlyAscending signers = true) : signers.Pairwise (· < ·) := by
  induction signers with
  | nil => exact .nil
  | cons first rest ih =>
    cases rest with
    | nil => exact List.pairwise_singleton _ _
    | cons second others =>
      obtain ⟨below, restSorted⟩ : first < second ∧ strictlyAscending (second :: others) = true := by
        simpa only [strictlyAscending, Bool.and_eq_true, decide_eq_true_eq] using sorted
      have ascending := ih restSorted
      refine List.pairwise_cons.2 ⟨?_, ascending⟩
      intro signer member
      rcases List.mem_cons.1 member with rfl | member
      · exact below
      · exact BitVec.lt_trans below ((List.pairwise_cons.1 ascending).1 signer member)

theorem isSorted_iff {set : SignatureSet} : set.isSorted = true ↔ Ascending set.entries := by
  constructor
  · intro sorted
    exact List.pairwise_map.1 (pairwise_of_strictlyAscending sorted)
  · intro ascending
    exact strictlyAscending_of_pairwise (List.pairwise_map.2 ascending)

end SignatureSet

/-- The gate opens for a list of owners in strictly ascending order that is not empty and as long as
the threshold asks. -/
theorem AccountPolicy.selectPath_threshold_iff {owners : List Address} {required : UInt64}
    {set : SignatureSet} :
    (threshold owners required).selectPath set = .ok .threshold ↔
      set.entries ≠ [] ∧ required.toNat ≤ set.entries.length ∧ Ascending set.entries ∧
        ∀ entry ∈ set.entries, entry.signer ∈ owners := by
  constructor
  · intro opened
    unfold selectPath at opened
    dsimp only at opened
    split at opened
    · cases opened
    · rename_i some
      split at opened
      · cases opened
      · rename_i enough
        split at opened
        · cases opened
        · rename_i known
          split at opened
          · rename_i sorted
            refine ⟨fun none => some (by rw [none]; rfl), Nat.le_of_not_lt enough,
              SignatureSet.isSorted_iff.1 sorted, ?_⟩
            intro entry member
            have listed : entry.signer ∈ set.signers := List.mem_map.2 ⟨entry, member, rfl⟩
            simpa using List.find?_eq_none.1 known entry.signer listed
          · cases opened
  · rintro ⟨some, enough, ascending, members⟩
    have positive := List.length_pos_iff.2 some
    exact selectPath_threshold ascending members (by omega)

namespace Abi

theorem addressesAt_of_standsAt {data : Bytes} {addresses : List Address} {offset : Nat}
    (stands : StandsAt (addressWords addresses) data offset) :
    addressesAt data addresses.length offset = .ok addresses := by
  induction addresses generalizing offset with
  | nil => rfl
  | cons address rest ih =>
    have split : addressWords (address :: rest)
      = wordBytes (address.setWidth 256) ++ addressWords rest := rfl
    rw [split] at stands
    have behind := stands.right
    rw [length_wordBytes] at behind
    rw [List.length_cons, addressesAt, addressAt_eq_ok stands.left, ih behind]
    rfl

/-- An answer with addresses is read back, in order and with repetitions. -/
theorem decodeAddresses_encode {addresses : List Address}
    (fits : addresses.length < Text.wordLimit) :
    decodeAddresses (encode [.array (addresses.map .address)]) = .ok addresses := by
  have whole := Bytes.standsAt_self (encode [.array (addresses.map .address)])
  nth_rewrite 1 [encode_addresses] at whole
  have behind := whole.right
  rw [length_numberWord] at behind
  have words := behind.right
  rw [length_numberWord] at words
  unfold decodeAddresses
  rw [offsetAt_eq_ok whole.left (by decide), Outcome.ok_bind, offsetAt_eq_ok behind.left fits,
    Outcome.ok_bind]
  exact addressesAt_of_standsAt words

end Abi

namespace Chain

/-- The signers that are recovered are those that the entries name. -/
theorem signers_of_recovered {digest : Hash} {entries : List SignatureEntry}
    (recovers : ∀ entry ∈ entries,
      Account.recoverSigner digest entry.signature = .ok entry.signer) {signers : List Address}
    (recovered : List.Forall₂
      (fun signature signer => Account.recoverSigner digest signature = .ok signer)
      (entries.map (·.signature)) signers) :
    signers = entries.map (·.signer) := by
  induction entries generalizing signers with
  | nil =>
    cases recovered
    rfl
  | cons entry rest ih =>
    cases recovered with
    | cons first others =>
      rw [recovers entry List.mem_cons_self] at first
      cases first
      rw [ih (fun other member => recovers other (List.mem_cons_of_mem _ member)) others]
      rfl

theorem checkOwners_iff {digest : Hash} {owners : List Address} {last : Address}
    {entries : List SignatureEntry}
    (recovers : ∀ entry ∈ entries,
      Account.recoverSigner digest entry.signature = .ok entry.signer) :
    checkOwners digest owners last (entries.map (·.signature)) = .ok () ↔
      Ascending entries ∧ (∀ entry ∈ entries, last < entry.signer) ∧
        ∀ entry ∈ entries, entry.signer ∈ owners := by
  constructor
  · intro accepted
    obtain ⟨signers, recovered, ascending, above, members⟩ := checkOwners_eq_ok accepted
    have same := signers_of_recovered recovers recovered
    rw [same] at ascending above members
    refine ⟨List.pairwise_map.1 ascending, fun entry member => ?_, fun entry member => ?_⟩
    · exact above _ (List.mem_map.2 ⟨entry, member, rfl⟩)
    · exact members _ (List.mem_map.2 ⟨entry, member, rfl⟩)
  · rintro ⟨ascending, above, members⟩
    exact checkOwners_of_ascending ascending recovers above members

/-- The chain accepts a list of owners in strictly ascending order that is as long as the threshold
asks, an empty one too. -/
theorem checkSignatures_iff {state : State} {call : RelayCall} {digest : Hash} {held : OwnerSet}
    {set : SignatureSet} (owned : state.ownerSets.get? call.request.sender = some held)
    (nonzero : 0 ∉ held.owners) (path : call.thresholdPath = true)
    (listed : call.signatures = set.signatures)
    (recovers : ∀ entry ∈ set.entries,
      Account.recoverSigner digest entry.signature = .ok entry.signer) :
    checkSignatures state call digest = .ok () ↔
      held.threshold.toNat ≤ set.entries.length ∧ Ascending set.entries ∧
        ∀ entry ∈ set.entries, entry.signer ∈ held.owners := by
  have count : call.signatures.length = set.entries.length := by
    rw [listed]
    exact List.length_map _
  have checked : checkSignatures state call digest = .ok () ↔
      checkOwners digest held.owners 0 call.signatures = .ok () ∧
        held.threshold.toNat ≤ set.entries.length := by
    unfold checkSignatures
    rw [if_pos path, owned]
    dsimp only
    rw [Outcome.bind_eq_ok, count]
    constructor
    · rintro ⟨⟨⟩, accepted, rest⟩
      split at rest
      · cases rest
      · rename_i enough
        exact ⟨accepted, Nat.le_of_not_lt enough⟩
    · rintro ⟨accepted, enough⟩
      exact ⟨(), accepted, by rw [if_neg (Nat.not_lt.2 enough)]; rfl⟩
  rw [checked, listed, SignatureSet.signatures, checkOwners_iff recovers]
  constructor
  · rintro ⟨⟨ascending, -, members⟩, enough⟩
    exact ⟨enough, ascending, members⟩
  · rintro ⟨enough, ascending, members⟩
    refine ⟨⟨ascending, fun entry member => ?_, members⟩, enough⟩
    have notZero : entry.signer ≠ 0 := fun zero => nonzero (zero ▸ members entry member)
    exact BitVec.lt_of_le_ne (by simp [BitVec.le_def]) notZero.symm

end Chain

open Chain

/-- The gate, with the policy that is read for an account, opens exactly for the lists of signatures
that are not empty and that the chain accepts for the account. So the gate and the chain agree
exactly when there is a signature or a threshold. -/
theorem policy_gate_agrees {contracts : Contracts} {state : State} {call : RelayCall}
    {digest : Hash} {held : OwnerSet} {set : SignatureSet} (unlocked : state.poisoned = false)
    (owned : state.ownerSets.get? call.request.sender = some held)
    (fits : held.owners.length < Text.wordLimit) (nonzero : 0 ∉ held.owners)
    (path : call.thresholdPath = true) (listed : call.signatures = set.signatures)
    (recovers : ∀ entry ∈ set.entries,
      Account.recoverSigner digest entry.signature = .ok entry.signer) :
    ∃ policy, (Custody.fetchPolicy call.request.sender).Yields (ledger contracts) state
        (.ok policy) state ∧
      (policy.selectPath set = .ok .threshold ↔
        set.entries ≠ [] ∧ checkSignatures state call digest = .ok ()) ∧
      ((policy.selectPath set = .ok .threshold ↔ checkSignatures state call digest = .ok ()) ↔
        set.entries ≠ [] ∨ held.threshold ≠ 0) := by
  have read : (Custody.fetchPolicy call.request.sender).Yields (ledger contracts) state
      (.ok (.threshold held.owners held.threshold)) state :=
    Custody.yields_fetchPolicy unlocked owned (Abi.decodeAddresses_encode fits)
  have accepts := checkSignatures_iff owned nonzero path listed recovers
  have opens : (AccountPolicy.threshold held.owners held.threshold).selectPath set
      = .ok .threshold ↔ set.entries ≠ [] ∧ checkSignatures state call digest = .ok () := by
    rw [accepts, AccountPolicy.selectPath_threshold_iff]
  refine ⟨_, read, opens, ?_⟩
  rw [opens]
  constructor
  · intro agree
    by_cases some : set.entries = []
    · refine .inr fun free => (agree.2 (accepts.2 ?_)).1 some
      rw [some, free]
      exact ⟨Nat.le_refl 0, .nil, by simp⟩
    · exact .inl some
  · intro covered
    refine ⟨fun both => both.2, fun accepted => ⟨?_, accepted⟩⟩
    rcases covered with some | asked
    · exact some
    · intro none
      have enough := (accepts.1 accepted).1
      rw [none] at enough
      exact asked (UInt64.toNat_inj.1 (Nat.le_zero.1 enough))

/-- One of two owners signs, as the threshold asks: the chain accepts and the gate opens. -/
theorem policy_gate_agrees_one_of_two :
    let signer : Signer := ⟨⟨3, by decide⟩, 0x6813eb9362372eef6200f3b1dbc3f819671cba69⟩
    let state := ({} : State).setOwnerSet 7 [9, signer.address] 1
    ∃ signature, Account.recoverSigner 5 signature = .ok signer.address ∧
      checkSignatures state ⟨⟨0, 7, 0, []⟩, [signature], true⟩ 5 = .ok () ∧
      ∀ contracts, ∃ policy, (Custody.fetchPolicy 7).Yields (ledger contracts) state (.ok policy)
          state ∧
        policy.selectPath ⟨[⟨signer.address, signature⟩]⟩ = .ok .threshold := by
  intro signer state
  obtain ⟨signature, -, recovered⟩ : Signer.Recovers signer 5 := by decide +kernel
  have owned : state.ownerSets.get? 7 = some ⟨[9, signer.address], 1⟩ := rfl
  have accepted : checkSignatures state ⟨⟨0, 7, 0, []⟩, [signature], true⟩ 5 = .ok () := by
    unfold checkSignatures checkOwners checkOwners
    rw [if_pos rfl, owned, recovered]
    rfl
  refine ⟨signature, recovered, accepted, fun contracts => ?_⟩
  obtain ⟨policy, read, opens, -⟩ :=
    @policy_gate_agrees contracts state ⟨⟨0, 7, 0, []⟩, [signature], true⟩ 5 _
      ⟨[⟨signer.address, signature⟩]⟩ rfl owned (by decide) (by decide) rfl rfl
      (by simpa using recovered)
  exact ⟨policy, read, opens.2 ⟨List.cons_ne_nil _ _, accepted⟩⟩

/-- Without a threshold and without a signature the gate stays shut and the chain accepts. -/
theorem policy_gate_shut_for_unsigned :
    let state := ({} : State).setOwnerSet 7 [1] 0
    let call : RelayCall := ⟨⟨0, 7, 0, []⟩, [], true⟩
    (∀ contracts, (Custody.fetchPolicy 7).Yields (ledger contracts) state
      (.ok (.threshold [1] 0)) state) ∧
    (AccountPolicy.threshold [1] 0).selectPath ⟨[]⟩ = .error .noSigners ∧
    checkSignatures state call 5 = .ok () := by
  intro state call
  have owned : state.ownerSets.get? 7 = some ⟨[1], 0⟩ := rfl
  refine ⟨fun contracts => ?_, rfl, rfl⟩
  exact Custody.yields_fetchPolicy rfl owned (Abi.decodeAddresses_encode (by decide))

end GaslessRelay
