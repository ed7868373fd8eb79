import GaslessRelay.Proofs.ChainExecution

/-!
Signature sets that a list of signers makes. Whatever the order of the signers is, their entries are
put into strictly ascending order, as the policy and the chain require (`ascending_ofEntries`), and
the chain accepts owners in that order (`Chain.checkOwners_of_ascending`).
-/

namespace GaslessRelay

open Outcome
open scoped List

namespace SignatureSet

theorem perm_insertBySigner (entry : SignatureEntry) (entries : List SignatureEntry) :
    (insertBySigner entry entries).Perm (entry :: entries) := by
  induction entries with
  | nil => exact .refl _
  | cons first rest ih =>
    unfold insertBySigner
    split
    · exact .refl _
    · exact (ih.cons first).trans (.swap entry first rest)

theorem perm_foldl_insertBySigner (entries sorted : List SignatureEntry) :
    (entries.foldl (fun sorted entry => insertBySigner entry sorted) sorted).Perm
      (entries ++ sorted) := by
  induction entries generalizing sorted with
  | nil => exact .refl _
  | cons entry rest ih =>
    calc
      _ ~ rest ++ insertBySigner entry sorted := ih _
      _ ~ rest ++ entry :: sorted := (perm_insertBySigner entry sorted).append_left rest
      _ ~ entry :: rest ++ sorted := List.perm_middle

/-- No entry is lost or added. -/
theorem perm_ofEntries (entries : List SignatureEntry) :
    (ofEntries entries).entries.Perm entries := by
  have folded := perm_foldl_insertBySigner entries []
  rwa [List.append_nil] at folded

def Ascending (entries : List SignatureEntry) : Prop :=
  entries.Pairwise (·.signer < ·.signer)

theorem Ascending.insertBySigner {entry : SignatureEntry} {entries : List SignatureEntry}
    (ascending : Ascending entries) (fresh : ∀ other ∈ entries, other.signer ≠ entry.signer) :
    Ascending (insertBySigner entry entries) := by
  induction entries with
  | nil => exact List.pairwise_singleton _ _
  | cons first rest ih =>
    obtain ⟨above, restAscending⟩ := List.pairwise_cons.1 ascending
    unfold SignatureSet.insertBySigner
    split
    · rename_i below
      refine List.pairwise_cons.2 ⟨?_, ascending⟩
      intro other member
      rcases List.mem_cons.1 member with rfl | member
      · exact below
      · exact BitVec.lt_trans below (above other member)
    · rename_i notBelow
      refine List.pairwise_cons.2
        ⟨?_, ih restAscending fun other member => fresh other (List.mem_cons_of_mem _ member)⟩
      intro other member
      rcases List.mem_cons.1 ((perm_insertBySigner entry rest).mem_iff.1 member) with rfl | member
      · have different := fresh first List.mem_cons_self
        exact BitVec.lt_of_le_ne (BitVec.not_lt.1 notBelow) different
      · exact above other member

theorem Ascending.foldl_insertBySigner {entries sorted : List SignatureEntry}
    (ascending : Ascending sorted) (distinct : ((entries ++ sorted).map (·.signer)).Nodup) :
    Ascending (entries.foldl (fun sorted entry => SignatureSet.insertBySigner entry sorted)
      sorted) := by
  induction entries generalizing sorted with
  | nil => exact ascending
  | cons entry rest ih =>
    obtain ⟨fresh, -⟩ := List.nodup_cons.1 distinct
    have moved : rest ++ SignatureSet.insertBySigner entry sorted ~ entry :: (rest ++ sorted) :=
      ((perm_insertBySigner entry sorted).append_left rest).trans List.perm_middle
    apply ih
    · apply ascending.insertBySigner
      intro other member same
      exact fresh (List.mem_map.2 ⟨other, List.mem_append_right _ member, same⟩)
    · exact (moved.map (·.signer)).nodup_iff.2 distinct

/-- Entries of different signers are put into strictly ascending order. -/
theorem ascending_ofEntries {entries : List SignatureEntry}
    (distinct : (entries.map (·.signer)).Nodup) :
    Ascending (ofEntries entries).entries ∧ (ofEntries entries).entries.Perm entries := by
  have none : Ascending [] := .nil
  exact ⟨none.foldl_insertBySigner (by simpa using distinct), perm_ofEntries entries⟩

theorem strictlyAscending_of_pairwise {signers : List Address}
    (ascending : signers.Pairwise (· < ·)) : strictlyAscending signers = true := by
  induction signers with
  | nil => rfl
  | cons first rest ih =>
    obtain ⟨above, restAscending⟩ := List.pairwise_cons.1 ascending
    cases rest with
    | nil => rfl
    | cons second others =>
      unfold strictlyAscending
      rw [ih restAscending, decide_eq_true (above second List.mem_cons_self)]
      rfl

end SignatureSet

open SignatureSet (Ascending)

theorem AccountPolicy.selectPath_threshold {owners : List Address} {required : UInt64}
    {set : SignatureSet} (ascending : Ascending set.entries)
    (members : ∀ entry ∈ set.entries, entry.signer ∈ owners)
    (enough : max 1 required.toNat ≤ set.entries.length) :
    (threshold owners required).selectPath set = .ok .threshold := by
  have known : set.signers.find? (!owners.contains ·) = none := by
    rw [List.find?_eq_none]
    intro signer member
    obtain ⟨entry, isEntry, rfl⟩ := List.mem_map.1 member
    simpa using members entry isEntry
  have sorted : set.isSorted = true :=
    SignatureSet.strictlyAscending_of_pairwise (List.pairwise_map.2 ascending)
  unfold selectPath
  rw [if_neg (by omega)]
  dsimp only
  rw [if_neg (by omega), known, if_pos sorted]

namespace Chain

theorem checkOwners_of_ascending {digest : Hash} {owners : List Address} {last : Address}
    {entries : List SignatureEntry} (ascending : Ascending entries)
    (recovers : ∀ entry ∈ entries,
      Account.recoverSigner digest entry.signature = .ok entry.signer)
    (above : ∀ entry ∈ entries, last < entry.signer)
    (members : ∀ entry ∈ entries, entry.signer ∈ owners) :
    checkOwners digest owners last (entries.map (·.signature)) = .ok () := by
  induction entries generalizing last with
  | nil => rfl
  | cons entry rest ih =>
    obtain ⟨aboveEntry, restAscending⟩ := List.pairwise_cons.1 ascending
    have accepted : ¬(entry.signer ≤ last ∨ (!owners.contains entry.signer) = true) := by
      rintro (below | stranger)
      · exact BitVec.not_le.2 (above entry List.mem_cons_self) below
      · simp [members entry List.mem_cons_self] at stranger
    rw [List.map_cons, checkOwners, recovers entry List.mem_cons_self]
    show (if _ then _ else _) = _
    rw [if_neg accepted]
    exact ih restAscending (fun other member => recovers other (List.mem_cons_of_mem _ member))
      aboveEntry (fun other member => members other (List.mem_cons_of_mem _ member))

end Chain

/-- The signer makes a signature of the digest from which its address is recovered. -/
def Signer.Recovers (signer : Signer) (digest : Hash) : Prop :=
  ∃ signature, signer.sign digest = .ok signature ∧
    Account.recoverSigner digest signature = .ok signer.address

theorem Signer.recovers_iff {signer : Signer} {digest : Hash} :
    signer.Recovers digest ↔
      (signer.sign digest >>= Account.recoverSigner digest) = .ok signer.address :=
  bind_eq_ok.symm

instance (signer : Signer) (digest : Hash) : Decidable (signer.Recovers digest) :=
  decidable_of_iff _ Signer.recovers_iff.symm

theorem Account.signAll_eq_ok {digest : Hash} {signers : List Signer}
    (recover : ∀ signer ∈ signers, signer.Recovers digest) :
    ∃ entries, signAll digest signers = .ok entries ∧
      entries.map (·.signer) = signers.map (·.address) ∧
      ∀ entry ∈ entries, recoverSigner digest entry.signature = .ok entry.signer := by
  induction signers with
  | nil => exact ⟨[], rfl, rfl, by simp⟩
  | cons signer rest ih =>
    obtain ⟨signature, signed, recovered⟩ := recover signer List.mem_cons_self
    obtain ⟨entries, signedAll, addresses, recoveredAll⟩ :=
      ih fun other member => recover other (List.mem_cons_of_mem _ member)
    refine ⟨⟨signer.address, signature⟩ :: entries, ?_, by simp [addresses], ?_⟩
    · rw [signAll, signed, signedAll]
      rfl
    · intro entry member
      rcases List.mem_cons.1 member with rfl | member
      · exact recovered
      · exact recoveredAll entry member

/-- Different signers make an entry each, in ascending order, from which they are recovered. -/
theorem Account.signRequest_eq_ok {encoded : EncodedRequest} {domain : Domain}
    {signers : List Signer} (some : signers.isEmpty = false)
    (distinct : (signers.map (·.address)).Nodup)
    (recover : ∀ signer ∈ signers, signer.Recovers (encoded.digest domain)) :
    ∃ set, signRequest encoded domain signers = .ok set ∧ Ascending set.entries ∧
      set.entries.length = signers.length ∧
      ∀ entry ∈ set.entries,
        recoverSigner (encoded.digest domain) entry.signature = .ok entry.signer ∧
        ∃ signer ∈ signers, signer.address = entry.signer := by
  obtain ⟨entries, signed, addresses, recovers⟩ := signAll_eq_ok recover
  obtain ⟨ascending, permuted⟩ := SignatureSet.ascending_ofEntries (addresses ▸ distinct)
  refine ⟨.ofEntries entries, ?_, ascending, ?_, ?_⟩
  · unfold signRequest
    rw [some, signed]
    rfl
  · rw [permuted.length_eq, ← List.length_map (·.signer), addresses, List.length_map]
  · intro entry member
    have made := permuted.mem_iff.1 member
    have listed : entry.signer ∈ entries.map (·.signer) := List.mem_map.2 ⟨entry, made, rfl⟩
    rw [addresses] at listed
    exact ⟨recovers entry made, List.mem_map.1 listed⟩

theorem Account.length_of_recoverSigner {digest : Hash} {signature : Bytes} {signer : Address}
    (recovered : recoverSigner digest signature = .ok signer) :
    signature.length = signatureLength := by
  unfold recoverSigner signatureParts at recovered
  by_cases whole : signature.length = signatureLength
  · exact whole
  · rw [if_neg whole] at recovered
    cases recovered

end GaslessRelay
