import GaslessRelay.Proofs.PathVerdicts
import GaslessRelay.Proofs.PolicyGate
import Mathlib.Data.List.Sort

/-!
Signers in any order. Entries are sorted by their signers, so permuted signers with an address for
each key make the same set (`Account.signRequest_perm`), and the gate admits what they make exactly
when they are enough different owners (`gate_admits_owners_in_any_order`).
-/

namespace GaslessRelay

open Outcome (bind_eq_ok map_eq_ok)
open scoped List

namespace SignatureSet

variable {entries others : List SignatureEntry}

theorem pairwise_insertBySigner {entry : SignatureEntry}
    (sorted : entries.Pairwise (·.signer ≤ ·.signer)) :
    (insertBySigner entry entries).Pairwise (·.signer ≤ ·.signer) := by
  induction entries with
  | nil => exact List.pairwise_singleton _ _
  | cons first rest ih =>
    obtain ⟨above, restSorted⟩ := List.pairwise_cons.1 sorted
    unfold insertBySigner
    split
    · rename_i below
      apply List.pairwise_cons.2
      refine ⟨?_, sorted⟩
      intro other member
      rcases List.mem_cons.1 member with rfl | member
      · exact BitVec.le_of_lt below
      · exact BitVec.le_trans (BitVec.le_of_lt below) (above other member)
    · rename_i notBelow
      apply List.pairwise_cons.2
      refine ⟨?_, ih restSorted⟩
      intro other member
      rcases List.mem_cons.1 ((perm_insertBySigner entry rest).mem_iff.1 member) with rfl | member
      · exact BitVec.not_lt.1 notBelow
      · exact above other member

/-- Whatever the entries are, their signers are put into ascending order. -/
theorem pairwise_ofEntries (entries : List SignatureEntry) :
    (ofEntries entries).entries.Pairwise (·.signer ≤ ·.signer) := by
  have sorted : ∀ before : List SignatureEntry, before.Pairwise (·.signer ≤ ·.signer) →
      (entries.foldl (fun sorted entry => insertBySigner entry sorted) before).Pairwise
        (·.signer ≤ ·.signer) := by
    induction entries with
    | nil => exact fun before sorted => sorted
    | cons entry rest ih => exact fun before sorted => ih _ (pairwise_insertBySigner sorted)
  exact sorted [] .nil

/-- Permuted entries make the same set, unless a signer has two different ones. -/
theorem ofEntries_congr (permuted : others.Perm entries)
    (single : ∀ first ∈ entries, ∀ second ∈ entries, first.signer = second.signer →
      first = second) : ofEntries others = ofEntries entries := by
  have moved : (ofEntries others).entries.Perm (ofEntries entries).entries :=
    (perm_ofEntries others).trans (permuted.trans (perm_ofEntries entries).symm)
  have same : (ofEntries others).entries = (ofEntries entries).entries := by
    apply List.Perm.eq_of_pairwise _ (pairwise_ofEntries others) (pairwise_ofEntries entries) moved
    intro first second inOthers inEntries below above
    have firstMember := permuted.mem_iff.1 ((perm_ofEntries others).mem_iff.1 inOthers)
    have secondMember := (perm_ofEntries entries).mem_iff.1 inEntries
    exact single first firstMember second secondMember (BitVec.le_antisymm below above)
  exact congrArg SignatureSet.mk same

end SignatureSet

namespace Account

variable {digest : Hash} {signers others : List Signer} {entries : List SignatureEntry}

theorem signAll_cons_eq_ok {signer : Signer} {made : List SignatureEntry} :
    signAll digest (signer :: signers) = .ok made ↔ ∃ signature entries,
      signer.sign digest = .ok signature ∧ signAll digest signers = .ok entries ∧
        made = ⟨signer.address, signature⟩ :: entries := by
  rw [signAll]
  constructor
  · intro signed
    obtain ⟨signature, single, signedRest⟩ := bind_eq_ok.1 signed
    obtain ⟨entries, rest, same⟩ := bind_eq_ok.1 signedRest
    exact ⟨signature, entries, single, rest, (Except.ok.inj same).symm⟩
  · rintro ⟨signature, entries, single, rest, rfl⟩
    rw [single, rest]
    rfl

theorem signAll_perm (permuted : signers.Perm others)
    (signed : signAll digest signers = .ok entries) :
    ∃ moved, signAll digest others = .ok moved ∧ moved.Perm entries := by
  induction permuted generalizing entries with
  | nil => exact ⟨entries, signed, .refl _⟩
  | cons signer rest ih =>
    obtain ⟨signature, behind, made, signedRest, rfl⟩ := signAll_cons_eq_ok.1 signed
    obtain ⟨moved, signedMoved, permuted⟩ := ih signedRest
    exact ⟨_, signAll_cons_eq_ok.2 ⟨signature, moved, made, signedMoved, rfl⟩, permuted.cons _⟩
  | swap first second rest =>
    obtain ⟨signature, behind, made, signedRest, rfl⟩ := signAll_cons_eq_ok.1 signed
    obtain ⟨signature', behind', made', signedBehind, rfl⟩ := signAll_cons_eq_ok.1 signedRest
    have signedSecond := signAll_cons_eq_ok.2 ⟨signature, behind', made, signedBehind, rfl⟩
    exact ⟨_, signAll_cons_eq_ok.2 ⟨signature', _, made', signedSecond, rfl⟩, .swap _ _ _⟩
  | trans _ _ first second =>
    obtain ⟨middle, signedMiddle, toMiddle⟩ := first signed
    obtain ⟨moved, signedMoved, toMoved⟩ := second signedMiddle
    exact ⟨moved, signedMoved, toMoved.trans toMiddle⟩

theorem exists_signAll_iff : (∃ entries, signAll digest signers = .ok entries)
    ↔ ∀ signer ∈ signers, ∃ signature, signer.sign digest = .ok signature := by
  induction signers with
  | nil => simp [signAll]
  | cons signer rest ih =>
    simp only [List.forall_mem_cons, ← ih, signAll_cons_eq_ok]
    constructor
    · rintro ⟨made, signature, entries, single, signedRest, -⟩
      exact ⟨⟨signature, single⟩, entries, signedRest⟩
    · rintro ⟨⟨signature, single⟩, entries, signedRest⟩
      exact ⟨_, signature, entries, single, signedRest, rfl⟩

theorem mem_of_signAll {entry : SignatureEntry} (signed : signAll digest signers = .ok entries)
    (member : entry ∈ entries) :
    ∃ signer ∈ signers, signer.sign digest = .ok entry.signature ∧
      entry.signer = signer.address := by
  induction signers generalizing entries with
  | nil =>
    cases signed
    cases member
  | cons signer rest ih =>
    obtain ⟨signature, behind, made, signedRest, rfl⟩ := signAll_cons_eq_ok.1 signed
    rcases List.mem_cons.1 member with rfl | member
    · exact ⟨signer, List.mem_cons_self, made, rfl⟩
    · obtain ⟨other, inRest, madeOther, same⟩ := ih signedRest member
      exact ⟨other, List.mem_cons_of_mem _ inRest, madeOther, same⟩

/-- Signers of one address have one key. -/
def OneKeyEach (signers : List Signer) : Prop :=
  ∀ first ∈ signers, ∀ second ∈ signers, first.address = second.address → first.key = second.key

theorem OneKeyEach.of_nodup (distinct : (signers.map (·.address)).Nodup) : OneKeyEach signers := by
  intro first inFirst second inSecond same
  rw [List.inj_on_of_nodup_map distinct inFirst inSecond same]

theorem OneKeyEach.single (each : OneKeyEach signers)
    (signed : signAll digest signers = .ok entries) {first second : SignatureEntry}
    (inFirst : first ∈ entries) (inSecond : second ∈ entries)
    (same : first.signer = second.signer) : first = second := by
  obtain ⟨signer, member, made, address⟩ := mem_of_signAll signed inFirst
  obtain ⟨other, otherMember, madeOther, otherAddress⟩ := mem_of_signAll signed inSecond
  have addresses : signer.address = other.address := by
    rw [← address, same, otherAddress]
  have keys := each signer member other otherMember addresses
  have signers : signer = other := by
    cases signer
    cases other
    cases keys
    cases addresses
    rfl
  rw [signers, madeOther] at made
  have signatures : second.signature = first.signature := Except.ok.inj made
  cases first
  cases second
  cases same
  cases signatures
  rfl

variable {encoded : EncodedRequest} {domain : Domain} {set : SignatureSet}

theorem signRequest_eq_ok_iff : signRequest encoded domain signers = .ok set ↔
    signers ≠ [] ∧ ∃ entries, signAll (encoded.digest domain) signers = .ok entries ∧
      set = .ofEntries entries := by
  unfold signRequest
  cases signers with
  | nil => simp
  | cons signer rest => simp only [List.isEmpty_cons, Bool.false_eq_true, if_false, map_eq_ok,
      ne_eq, reduceCtorEq, not_false_eq_true, true_and, eq_comm (a := set)]

theorem exists_signRequest_iff : (∃ set, signRequest encoded domain signers = .ok set)
    ↔ signers ≠ [] ∧
      ∀ signer ∈ signers, ∃ signature, signer.sign (encoded.digest domain) = .ok signature := by
  simp only [signRequest_eq_ok_iff, exists_and_left, ← exists_signAll_iff]
  constructor
  · rintro ⟨some, set, entries, signed, -⟩
    exact ⟨some, entries, signed⟩
  · rintro ⟨some, entries, signed⟩
    exact ⟨some, _, entries, signed, rfl⟩

theorem signRequest_ok_of_perm (each : OneKeyEach signers) (permuted : others.Perm signers)
    (made : signRequest encoded domain signers = .ok set) :
    signRequest encoded domain others = .ok set := by
  obtain ⟨some, entries, signed, rfl⟩ := signRequest_eq_ok_iff.1 made
  obtain ⟨moved, signedMoved, movedPermuted⟩ := signAll_perm permuted.symm signed
  have someOthers : others ≠ [] := fun none => some (List.nil_perm.1 (none ▸ permuted))
  refine signRequest_eq_ok_iff.2 ⟨someOthers, moved, signedMoved, ?_⟩
  symm
  apply SignatureSet.ofEntries_congr movedPermuted
  intro first inFirst second inSecond same
  exact each.single signed inFirst inSecond same

theorem signRequest_perm (each : OneKeyEach signers) (permuted : others.Perm signers) :
    signRequest encoded domain others = signRequest encoded domain signers := by
  have eachOther : OneKeyEach others := by
    intro first inFirst second inSecond
    exact each first (permuted.mem_iff.1 inFirst) second (permuted.mem_iff.1 inSecond)
  cases made : signRequest encoded domain signers with
  | ok set => exact signRequest_ok_of_perm each permuted made
  | error error =>
    cases madeOther : signRequest encoded domain others with
    | ok set =>
      rw [signRequest_ok_of_perm eachOther permuted.symm madeOther] at made
      cases made
    | error other =>
      cases signers with
      | nil =>
        rw [List.perm_nil.1 permuted] at madeOther
        cases made
        cases madeOther
        rfl
      | cons signer rest =>
        have someOthers : others.isEmpty = false := by
          rw [permuted.isEmpty_eq]
          rfl
        rw [signRequest_eq_error rfl made, signRequest_eq_error someOthers madeOther]

end Account

namespace AccountPolicy

variable {owners : List Address} {required : UInt64} {set : SignatureSet} {path : RelayPath}

theorem selectPath_single_iff : singleKey.selectPath set = .ok path
    ↔ path = .singleKey ∧ set.entries.length = 1 := by
  unfold selectPath
  dsimp only
  by_cases one : set.entries.length = 1
  · simp [one, eq_comm]
  · rw [if_neg one]
    split <;> simp [one]

theorem path_of_threshold (selected : (threshold owners required).selectPath set = .ok path) :
    path = .threshold := by
  cases path with
  | threshold => rfl
  | singleKey =>
    unfold selectPath at selected
    dsimp only at selected
    repeat' split at selected
    all_goals cases selected

theorem selectPath_threshold_eq_ok : (threshold owners required).selectPath set = .ok path
    ↔ path = .threshold ∧ set.entries ≠ [] ∧ required.toNat ≤ set.entries.length ∧
      (∀ signer ∈ set.signers, signer ∈ owners) ∧ set.signers.Pairwise (· < ·) := by
  have members : (∀ signer ∈ set.signers, signer ∈ owners)
      ↔ ∀ entry ∈ set.entries, entry.signer ∈ owners := List.forall_mem_map
  have ascending : set.signers.Pairwise (· < ·) ↔ SignatureSet.Ascending set.entries :=
    List.pairwise_map
  rw [members, ascending]
  constructor
  · intro selected
    obtain rfl := path_of_threshold selected
    obtain ⟨some, enough, ordered, owned⟩ := selectPath_threshold_iff.1 selected
    exact ⟨rfl, some, enough, owned, ordered⟩
  · rintro ⟨rfl, some, enough, owned, ordered⟩
    exact selectPath_threshold_iff.2 ⟨some, enough, ordered, owned⟩

/-- A set that is admitted has enough different owners, and one at least. -/
theorem owners_of_selectPath (selected : (threshold owners required).selectPath set = .ok path) :
    set.signers.Nodup ∧ (∀ signer ∈ set.signers, signer ∈ owners) ∧
      max 1 required.toNat ≤ set.signers.length := by
  obtain ⟨-, some, enough, owned, ordered⟩ := selectPath_threshold_eq_ok.1 selected
  have positive := List.length_pos_iff.2 some
  have count : set.signers.length = set.entries.length := List.length_map _
  have distinct : set.signers.Nodup := by
    apply ordered.imp
    intro first second below same
    subst same
    exact BitVec.lt_irrefl _ below
  exact ⟨distinct, owned, by omega⟩

/-- The set that signers make is admitted when they are enough different owners. -/
theorem selectPath_of_signed {encoded : EncodedRequest} {domain : Domain} {signers : List Signer}
    (made : Account.signRequest encoded domain signers = .ok set) :
    (threshold owners required).selectPath set = .ok .threshold
      ↔ (signers.map (·.address)).Nodup ∧ (∀ signer ∈ signers, signer.address ∈ owners) ∧
        max 1 required.toNat ≤ signers.length := by
  obtain ⟨some, entries, signed, rfl⟩ := Account.signRequest_eq_ok_iff.1 made
  have addresses := Account.signers_signAll signed
  have permuted : (SignatureSet.ofEntries entries).signers ~ signers.map (·.address) := by
    rw [← addresses]
    exact (SignatureSet.perm_ofEntries entries).map (·.signer)
  have count : (SignatureSet.ofEntries entries).signers.length = signers.length := by
    rw [permuted.length_eq, List.length_map]
  have members : (∀ signer ∈ (SignatureSet.ofEntries entries).signers, signer ∈ owners)
      ↔ ∀ signer ∈ signers, signer.address ∈ owners := by
    simp only [permuted.mem_iff, List.forall_mem_map]
  constructor
  · intro selected
    obtain ⟨distinct, owned, enough⟩ := owners_of_selectPath selected
    exact ⟨permuted.nodup_iff.1 distinct, members.1 owned, count ▸ enough⟩
  · rintro ⟨distinct, owned, enough⟩
    obtain ⟨ascending, -⟩ := SignatureSet.ascending_ofEntries (addresses ▸ distinct)
    have length : (SignatureSet.ofEntries entries).entries.length = signers.length := by
      rw [← count]
      exact (List.length_map _).symm
    apply selectPath_threshold ascending (List.forall_mem_map.1 (members.2 owned))
    rwa [length]

end AccountPolicy

open AccountPolicy in
/-- With a threshold the gate admits a set that is not empty and as long as asked, whose signers are
owners in strictly ascending order; so they are enough different owners. A single key admits one
entry. Signers make the same set in any order, and it is admitted when they are enough different
owners. -/
theorem gate_admits_owners_in_any_order :
    (∀ owners required set path, (threshold owners required).selectPath set = .ok path ↔
      path = .threshold ∧ set.entries ≠ [] ∧ required.toNat ≤ set.entries.length ∧
        (∀ signer ∈ set.signers, signer ∈ owners) ∧ set.signers.Pairwise (· < ·)) ∧
    (∀ owners required set path, (threshold owners required).selectPath set = .ok path →
      set.signers.Nodup ∧ (∀ signer ∈ set.signers, signer ∈ owners) ∧
        max 1 required.toNat ≤ set.signers.length) ∧
    (∀ set path, singleKey.selectPath set = .ok path ↔
      path = .singleKey ∧ set.entries.length = 1) ∧
    ∀ (encoded : EncodedRequest) (domain : Domain) (signers : List Signer),
      ((∃ set, Account.signRequest encoded domain signers = .ok set) ↔ signers ≠ [] ∧
        ∀ signer ∈ signers, ∃ signature, signer.sign (encoded.digest domain) = .ok signature) ∧
      (Account.OneKeyEach signers → ∀ others, others.Perm signers →
        Account.signRequest encoded domain others = Account.signRequest encoded domain signers) ∧
      ∀ set, Account.signRequest encoded domain signers = .ok set → ∀ owners required,
        (threshold owners required).selectPath set = .ok .threshold ↔
          (signers.map (·.address)).Nodup ∧ (∀ signer ∈ signers, signer.address ∈ owners) ∧
            max 1 required.toNat ≤ signers.length :=
  ⟨fun _ _ _ _ => selectPath_threshold_eq_ok, fun _ _ _ _ => owners_of_selectPath,
    fun _ _ => selectPath_single_iff, fun _ _ _ => ⟨Account.exists_signRequest_iff,
      fun each _ => Account.signRequest_perm each, fun _ made _ _ => selectPath_of_signed made⟩⟩

/-- Two signers make the same set in either order; one owner's signature is admitted and not counted
twice. -/
theorem gate_admits_owners_in_any_order_repeated :
    let first : Signer := ⟨⟨1, by decide⟩, 0x7e5f4552091a69125d5dfcb7b8c2659029395bdf⟩
    let second : Signer := ⟨⟨2, by decide⟩, 0x2b5ad5c4795c026514f8317c7a215e218dccd6cf⟩
    let encoded : EncodedRequest := ⟨1, 7, 0, [], 5⟩
    let domain : Domain := ⟨"ProvenanceRelay", "1", 1, 1⟩
    let policy := AccountPolicy.threshold [first.address, second.address]
    Account.OneKeyEach [first, second] ∧ [second, first].Perm [first, second] ∧
      Account.signRequest encoded domain [second, first]
        = Account.signRequest encoded domain [first, second] ∧
      (∃ set, Account.signRequest encoded domain [first] = .ok set ∧
        (policy 1).selectPath set = .ok .threshold) ∧
      ∃ set, Account.signRequest encoded domain [first, first] = .ok set ∧
        (policy 2).selectPath set ≠ .ok .threshold := by
  intro first second encoded domain policy
  obtain ⟨-, -, -, signed⟩ := gate_admits_owners_in_any_order
  have each : Account.OneKeyEach [first, second] := .of_nodup (by decide)
  have permuted : [second, first].Perm [first, second] := .swap _ _ _
  have able : ∃ signature, first.sign (encoded.digest domain) = .ok signature := by
    have signs : (first.sign (encoded.digest domain)).toOption.isSome = true := by decide +kernel
    obtain ⟨signature, made⟩ := Option.isSome_iff_exists.1 signs
    exact ⟨signature, Outcome.toOption_eq_some.1 made⟩
  obtain ⟨-, order, -⟩ := signed encoded domain [first, second]
  obtain ⟨made, -, admitted⟩ := signed encoded domain [first]
  obtain ⟨madeTwice, -, admittedTwice⟩ := signed encoded domain [first, first]
  obtain ⟨set, single⟩ := made.2 ⟨List.cons_ne_nil _ _, by simpa using able⟩
  obtain ⟨both, twice⟩ := madeTwice.2 ⟨List.cons_ne_nil _ _, by simpa using able⟩
  refine ⟨each, permuted, order each _ permuted, ⟨set, single, ?_⟩, both, twice, ?_⟩
  · exact (admitted set single _ _).2 (by decide)
  · intro selected
    obtain ⟨distinct, -⟩ := (admittedTwice both twice _ _).1 selected
    exact absurd distinct (by decide)

end GaslessRelay
