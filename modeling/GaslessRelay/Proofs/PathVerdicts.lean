import GaslessRelay.Proofs.SignatureSets
import GaslessRelay.Proofs.RelayCalldata

/-!
What a policy says to a signature set before any signature is checked. Only the signers of the set
count, so the verdict on a signed request is known from the list of signers alone
(`Account.selectPath_of_signRequest`).
-/

namespace GaslessRelay

open Outcome

namespace SignatureSet

theorem signers_insertBySigner {entry other : SignatureEntry}
    {entries others : List SignatureEntry} (sameSigner : entry.signer = other.signer)
    (same : entries.map (·.signer) = others.map (·.signer)) :
    (insertBySigner entry entries).map (·.signer)
      = (insertBySigner other others).map (·.signer) := by
  induction entries generalizing others with
  | nil =>
    rw [List.map_eq_nil_iff.1 same.symm]
    simp [insertBySigner, sameSigner]
  | cons first rest ih =>
    obtain ⟨second, behind, rfl, sameFirst, sameRest⟩ := List.map_eq_cons_iff.1 same.symm
    unfold insertBySigner
    rw [sameSigner, sameFirst]
    split
    · simp [sameSigner, sameFirst, sameRest]
    · simp [sameFirst, ih sameRest.symm]

/-- The order of a set depends on the signers only. -/
theorem signers_ofEntries {entries others : List SignatureEntry}
    (same : entries.map (·.signer) = others.map (·.signer)) :
    (ofEntries entries).signers = (ofEntries others).signers := by
  have sorted : ∀ before before' : List SignatureEntry,
      before.map (·.signer) = before'.map (·.signer) →
      (entries.foldl (fun sorted entry => insertBySigner entry sorted) before).map (·.signer)
        = (others.foldl (fun sorted entry => insertBySigner entry sorted) before').map
          (·.signer) := by
    induction entries generalizing others with
    | nil =>
      intro before before' sameBefore
      rw [List.map_eq_nil_iff.1 same.symm]
      exact sameBefore
    | cons entry rest ih =>
      intro before before' sameBefore
      obtain ⟨other, behind, rfl, sameEntry, sameRest⟩ := List.map_eq_cons_iff.1 same.symm
      exact ih sameRest.symm _ _ (signers_insertBySigner sameEntry.symm sameBefore)
  exact sorted [] [] rfl

/-- The set that some signers will make, still without their signatures. -/
def unsigned (signers : List Signer) : SignatureSet :=
  ofEntries (signers.map fun signer => ⟨signer.address, []⟩)

theorem length_unsigned (signers : List Signer) :
    (unsigned signers).entries.length = signers.length := by
  have length := (perm_ofEntries (signers.map fun signer => ⟨signer.address, []⟩)).length_eq
  rwa [List.length_map] at length

end SignatureSet

namespace AccountPolicy

variable {policy : AccountPolicy} {set other : SignatureSet}

/-- No signature counts for the path. -/
theorem selectPath_congr (same : set.signers = other.signers) :
    policy.selectPath set = policy.selectPath other := by
  have count : set.entries.length = other.entries.length := by
    simpa [SignatureSet.signers] using congrArg List.length same
  unfold selectPath SignatureSet.isSorted
  rw [count, same]

/-- A set with signatures is refused for its path only. -/
theorem selectPath_eq_error {error : AuthError} (refused : policy.selectPath set = .error error) :
    set.entries = [] ∧ error = .noSigners ∨ ∃ fault, error = .invalidPath fault := by
  unfold selectPath at refused
  dsimp only at refused
  split at refused
  · rename_i none
    cases refused
    exact .inl ⟨List.length_eq_zero_iff.1 none, rfl⟩
  · right
    split at refused
    · split at refused <;> cases refused
      exact ⟨_, rfl⟩
    · split at refused
      · cases refused
        exact ⟨_, rfl⟩
      · split at refused
        · cases refused
          exact ⟨_, rfl⟩
        · split at refused <;> cases refused
          exact ⟨_, rfl⟩

theorem invalidPath_of_unsigned {signers : List Signer} {error : AuthError}
    (present : signers.isEmpty = false)
    (refused : policy.selectPath (.unsigned signers) = .error error) :
    ∃ fault, error = .invalidPath fault := by
  rcases selectPath_eq_error refused with ⟨none, -⟩ | path
  · have length := SignatureSet.length_unsigned signers
    rw [none] at length
    rw [List.length_eq_zero_iff.1 length.symm] at present
    cases present
  · exact path

end AccountPolicy

namespace EncodedRequest

variable {encoded : EncodedRequest} {policy : AccountPolicy} {set : SignatureSet}

/-- Whether a relay call is made depends on the path only. -/
theorem relayCalldata_of_refused {error : AuthError}
    (refused : policy.selectPath set = .error error) :
    encoded.relayCalldata policy set = .error (.ofAuth error) := by
  unfold relayCalldata
  rw [refused]

theorem relayCalldata_of_selected {path : RelayPath} (selected : policy.selectPath set = .ok path) :
    ∃ data, encoded.relayCalldata policy set = .ok data := by
  unfold relayCalldata
  rw [selected]
  cases path with
  | singleKey =>
    obtain ⟨signature, only⟩ := AccountPolicy.selectPath_single selected
    dsimp only
    rw [only]
    exact ⟨_, rfl⟩
  | threshold => exact ⟨_, rfl⟩

end EncodedRequest

/-- An equation of functions: applied to a key it would make the kernel compute a signature. -/
theorem Signer.sign_eq : sign = fun signer digest =>
    match Curve.sign? signer.key digest with
    | some signature =>
      .ok (Account.signatureBytes
        (Bytes.ofNat 32 signature.r.val ++ Bytes.ofNat 32 signature.s.val)
        (if signature.odd then 1 else 0))
    | none => .error .signatureInvalid := rfl

theorem Signer.sign_eq_error {signer : Signer} {digest : Hash} {error : AuthError}
    (failed : signer.sign digest = .error error) : error = .signatureInvalid := by
  rw [sign_eq] at failed
  beta_reduce at failed
  generalize Curve.sign? signer.key digest = made at failed
  cases made with
  | none => exact (Except.error.inj failed).symm
  | some signature => cases failed

namespace Account

variable {digest : Hash} {signers : List Signer}

theorem signAll_eq_error {error : AuthError} (failed : signAll digest signers = .error error) :
    error = .signatureInvalid := by
  induction signers with
  | nil => cases failed
  | cons signer rest ih =>
    rw [signAll] at failed
    cases signed : signer.sign digest with
    | error other =>
      rw [signed] at failed
      cases failed
      exact Signer.sign_eq_error signed
    | ok signature =>
      rw [signed] at failed
      cases signedAll : signAll digest rest with
      | error other =>
        rw [signedAll] at failed
        cases failed
        exact ih signedAll
      | ok entries =>
        rw [signedAll] at failed
        cases failed

theorem signers_signAll {entries : List SignatureEntry}
    (signed : signAll digest signers = .ok entries) :
    entries.map (·.signer) = signers.map (·.address) := by
  induction signers generalizing entries with
  | nil =>
    cases signed
    rfl
  | cons signer rest ih =>
    obtain ⟨signature, -, signed⟩ := bind_eq_ok.1 signed
    obtain ⟨behind, signedRest, made⟩ := bind_eq_ok.1 signed
    cases made
    simp [ih signedRest]

variable {encoded : EncodedRequest} {domain : Domain}

theorem signRequest_eq_error (some : signers.isEmpty = false) {error : AuthError}
    (failed : signRequest encoded domain signers = .error error) : error = .signatureInvalid := by
  unfold signRequest at failed
  rw [some] at failed
  exact signAll_eq_error (map_eq_error.1 failed)

/-- The policy says to a signed request what it says to the list of its signers. -/
theorem selectPath_of_signRequest {policy : AccountPolicy} {set : SignatureSet}
    (signed : signRequest encoded domain signers = .ok set) :
    policy.selectPath set = policy.selectPath (.unsigned signers) := by
  unfold signRequest at signed
  split at signed
  · cases signed
  · obtain ⟨entries, made, rfl⟩ := map_eq_ok.1 signed
    apply AccountPolicy.selectPath_congr
    apply SignatureSet.signers_ofEntries
    rw [signers_signAll made]
    simp

end Account

end GaslessRelay
