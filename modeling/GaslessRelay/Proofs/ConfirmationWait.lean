import GaslessRelay.Client.Settlement
import GaslessRelay.Proofs.ClientReplies

/-!
Waiting for a transaction, whatever the ledger replies. The receipt is asked for until there is one,
and then the head, if more than inclusion is wanted, until it is high enough
(`Settlement.traces_waitForReceipt_iff`). Heads may stall, jump or fall below the block. Main
statement: the wait ends with the first sufficient head or the first failure
(`Settlement.wait_ends_at_first_sufficient_head`).
-/

namespace GaslessRelay.Settlement

/-- How far a head is above a block, and nothing for a head below it. -/
def rise (head block : UInt64) : UInt64 := if head < block then 0 else head - block

/-- The depth of a block below a head does not fit its 64 bits. -/
def Overflows (head block : UInt64) : Prop := UInt64.size ≤ (rise head block).toNat + 1

/-- A head is so high that a block is as deep as wanted. The block itself counts. -/
def Sufficient (confirmations block head : UInt64) : Prop :=
  block.toNat ≤ head.toNat ∧ confirmations.toNat ≤ head.toNat - block.toNat + 1

theorem depth_eq (head block : UInt64) : depth head block = rise head block + 1 := rfl

theorem toNat_rise (head block : UInt64) : (rise head block).toNat = head.toNat - block.toNat := by
  unfold rise
  split
  · rename_i below
    have lower := UInt64.lt_iff_toNat_lt.1 below
    rw [UInt64.toNat_zero]
    omega
  · rename_i above
    exact UInt64.toNat_sub_of_le _ _ (UInt64.not_lt.1 above)

/-- Only the highest of all heads above the lowest of all blocks is too far away. -/
theorem overflows_iff {head block : UInt64} :
    Overflows head block ↔ head.toNat - block.toNat = UInt64.size - 1 := by
  have bound := head.toNat_lt_size
  unfold Overflows
  rw [toNat_rise]
  omega

theorem depth_of_overflows {head block : UInt64} (overflows : Overflows head block) :
    depth head block = 0 := by
  have size : (rise head block).toNat + 1 = UInt64.size := by
    have bound := (rise head block).toNat_lt_size
    unfold Overflows at overflows
    omega
  apply UInt64.toNat_inj.1
  rw [depth_eq, UInt64.toNat_add]
  show ((rise head block).toNat + 1) % UInt64.size = 0
  rw [size]
  exact Nat.mod_self _

theorem toNat_depth_of_fits {head block : UInt64} (fits : ¬Overflows head block) :
    (depth head block).toNat = head.toNat - block.toNat + 1 := by
  unfold Overflows at fits
  rw [depth_eq, UInt64.toNat_add, ← toNat_rise]
  exact Nat.mod_eq_of_lt (Nat.lt_of_not_le fits)

/-- The depth that is compared says what a sufficient head is, as long as it fits. -/
theorem le_depth_iff {confirmations head block : UInt64} (several : 1 < confirmations) :
    confirmations ≤ depth head block ↔
      Sufficient confirmations block head ∧ ¬Overflows head block := by
  have two : 1 < confirmations.toNat := UInt64.lt_iff_toNat_lt.1 several
  rw [UInt64.le_iff_toNat_le]
  by_cases overflows : Overflows head block
  · rw [depth_of_overflows overflows, UInt64.toNat_zero]
    constructor
    · intro none
      omega
    · rintro ⟨-, fits⟩
      exact absurd overflows fits
  · rw [toNat_depth_of_fits overflows]
    constructor
    · intro deep
      exact ⟨⟨by omega, deep⟩, overflows⟩
    · rintro ⟨⟨-, deep⟩, -⟩
      exact deep

/-- The transaction was asked for some times and was pending each time. -/
def pending (transaction : Hash) (times : Nat) : List Exchange :=
  List.replicate times ⟨.receipt transaction, .ok none⟩

/-- The head was asked for and each time was one of the heads. -/
def headReads (heads : List UInt64) : List Exchange :=
  heads.map fun head => ⟨.blockNumber, .ok head⟩

/-- What is asked after a receipt, in order, and what that ends with. -/
inductive Deepens (confirmations : UInt64) (receipt : Receipt) :
    List Exchange → Except RelayError Receipt → Prop
  /-- Inclusion is all that is wanted. -/
  | included (inclusion : confirmations ≤ 1) : Deepens confirmations receipt [] (.ok receipt)
  /-- The last head is sufficient, and no head before it ended the wait. -/
  | confirmed (heads : List UInt64) (last : UInt64) (several : 1 < confirmations)
      (early : ∀ head ∈ heads,
        Sufficient confirmations receipt.block head → Overflows head receipt.block)
      (enough : Sufficient confirmations receipt.block last)
      (fits : ¬Overflows last receipt.block) :
      Deepens confirmations receipt (headReads heads ++ [⟨.blockNumber, .ok last⟩]) (.ok receipt)
  /-- A question for the head failed, and no head before it ended the wait. -/
  | lost (heads : List UInt64) (error : RelayError) (several : 1 < confirmations)
      (early : ∀ head ∈ heads,
        Sufficient confirmations receipt.block head → Overflows head receipt.block) :
      Deepens confirmations receipt (headReads heads ++ [⟨.blockNumber, .error error⟩])
        (.error error)

/-- What a wait asks and is told, in order, and what it ends with. -/
inductive Waits (transaction : Hash) (confirmations : UInt64) :
    List Exchange → Except RelayError Receipt → Prop
  /-- A question for the receipt failed. -/
  | unanswered (times : Nat) (error : RelayError) :
      Waits transaction confirmations
        (pending transaction times ++ [⟨.receipt transaction, .error error⟩]) (.error error)
  /-- There is a receipt, and it is not asked for again. -/
  | answered (times : Nat) (receipt : Receipt) {later : List Exchange}
      {result : Except RelayError Receipt} (deepens : Deepens confirmations receipt later result) :
      Waits transaction confirmations
        (pending transaction times ++ ⟨.receipt transaction, .ok (some receipt)⟩ :: later) result

variable {transaction : Hash} {confirmations : UInt64} {receipt : Receipt} {log : List Exchange}

/-- The poll for the receipt ends with a failure or the first receipt. -/
theorem traces_receipt_iff {result : Except RelayError (Option Receipt)} :
    (ClientM.poll (.receipt transaction) Option.isSome).run.Traces log result ↔
      result ≠ .ok none ∧
        ∃ times, log = pending transaction times ++ [⟨.receipt transaction, result⟩] := by
  rw [ClientM.traces_poll_iff]
  constructor
  · rintro ⟨passed, insufficient, last, rfl⟩
    have all : passed = List.replicate passed.length none :=
      List.eq_replicate_iff.2 ⟨rfl, fun answer listed => by simpa using insufficient answer listed⟩
    have asked : passed.map (fun answer => (⟨.receipt transaction, .ok answer⟩ : Exchange))
        = pending transaction passed.length := by
      rw [all, List.map_replicate, List.length_replicate]
      rfl
    refine ⟨fun none => ?_, passed.length, by rw [asked]⟩
    cases last _ none
  · rintro ⟨final, times, rfl⟩
    refine ⟨List.replicate times none, fun answer listed => ?_, fun answer same => ?_, ?_⟩
    · rw [List.eq_of_mem_replicate listed]
      rfl
    · cases answer with
      | none => exact absurd same final
      | some receipt => rfl
    · rw [List.map_replicate]
      rfl

/-- The poll for the head ends with a failure or the first sufficient head. -/
theorem traces_head_iff (several : 1 < confirmations) {block : UInt64}
    {result : Except RelayError UInt64} :
    (ClientM.poll .blockNumber fun head => decide (confirmations ≤ depth head block)).run.Traces
        log result ↔
      ∃ heads, (∀ head ∈ heads, Sufficient confirmations block head → Overflows head block) ∧
        (∀ head, result = .ok head → Sufficient confirmations block head ∧ ¬Overflows head block) ∧
        log = headReads heads ++ [⟨.blockNumber, result⟩] := by
  rw [ClientM.traces_poll_iff]
  simp only [decide_eq_true_eq, decide_eq_false_iff_not, le_depth_iff several, not_and,
    Classical.not_not]
  rfl

/-- What follows a receipt, if more than inclusion is wanted. -/
theorem traces_deepen_iff (several : 1 < confirmations) {result : Except RelayError Receipt} :
    (do
      let _ ← ClientM.poll .blockNumber fun head => decide (confirmations ≤ depth head receipt.block)
      return receipt : ClientM Receipt).run.Traces log result ↔
      Deepens confirmations receipt log result := by
  rw [ClientM.traces_bind_iff]
  constructor
  · rintro (⟨first, later, head, rfl, polled, ended⟩ | ⟨error, polled, rfl⟩)
    · obtain ⟨heads, early, enough, rfl⟩ := (traces_head_iff several).1 polled
      obtain ⟨rfl, rfl⟩ := ClientM.traces_pure_iff.1 ended
      obtain ⟨reached, fits⟩ := enough head rfl
      rw [List.append_nil]
      exact .confirmed heads head several early reached fits
    · obtain ⟨heads, early, -, rfl⟩ := (traces_head_iff several).1 polled
      exact .lost heads error several early
  · intro deepens
    cases deepens with
    | included inclusion => exact absurd several (UInt64.not_lt.2 inclusion)
    | confirmed heads last several early enough fits =>
      refine .inl ⟨_, [], last, (List.append_nil _).symm, ?_, ClientM.traces_pure_iff.2 ⟨rfl, rfl⟩⟩
      refine (traces_head_iff several).2 ⟨heads, early, fun head same => ?_, rfl⟩
      rw [← Except.ok.inj same]
      exact ⟨enough, fits⟩
    | lost heads error several early =>
      exact .inr ⟨error, (traces_head_iff several).2 ⟨heads, early, by simp, rfl⟩, rfl⟩

/-- A wait has these traces and no others. -/
theorem traces_waitForReceipt_iff {result : Except RelayError Receipt} :
    (waitForReceipt transaction confirmations).run.Traces log result ↔
      Waits transaction confirmations log result := by
  unfold waitForReceipt
  rw [ClientM.traces_bind_iff]
  constructor
  · rintro (⟨first, later, answer, rfl, polled, behind⟩ | ⟨error, polled, rfl⟩)
    · obtain ⟨final, times, rfl⟩ := traces_receipt_iff.1 polled
      cases answer with
      | none => exact absurd rfl final
      | some receipt =>
        rw [List.append_assoc, List.singleton_append]
        apply Waits.answered times receipt
        dsimp only at behind
        split at behind
        · rename_i several
          exact (traces_deepen_iff several).1 behind
        · rename_i inclusion
          obtain ⟨rfl, rfl⟩ := ClientM.traces_pure_iff.1 behind
          exact .included (UInt64.not_lt.1 inclusion)
    · obtain ⟨-, times, rfl⟩ := traces_receipt_iff.1 polled
      exact .unanswered times error
  · intro waits
    cases waits with
    | unanswered times error =>
      exact .inr ⟨error, traces_receipt_iff.2 ⟨by simp, times, rfl⟩, rfl⟩
    | answered times receipt deepens =>
      refine .inl ⟨_, _, some receipt, List.append_cons _ _ _,
        traces_receipt_iff.2 ⟨by simp, times, rfl⟩, ?_⟩
      dsimp only
      split
      · rename_i several
        exact (traces_deepen_iff several).2 deepens
      · rename_i inclusion
        cases deepens with
        | included => exact ClientM.traces_pure_iff.2 ⟨rfl, rfl⟩
        | confirmed heads last several => exact absurd several inclusion
        | lost heads error several => exact absurd several inclusion

/-- Against every ledger, a wait asks for the receipt until there is one or the question fails, and
then, for more than one confirmation, for the head until one is sufficient or the question fails.
It ends so whenever the ledger replies so, and in no other way. A sufficient head is passed over
only if the depth overflows, and that is so for one distance only. -/
theorem wait_ends_at_first_sufficient_head {σ : Type} (ledger : Ledger σ) (state : σ)
    (transaction : Hash) (confirmations : UInt64) :
    (∀ log result, (waitForReceipt transaction confirmations).Logs ledger state log result ↔
      ledger.Replies state log ∧ Waits transaction confirmations log result) ∧
    (∀ head block, Overflows head block ↔ head.toNat - block.toNat = UInt64.size - 1) := by
  constructor
  · intro log result
    rw [ClientM.logs_iff, traces_waitForReceipt_iff]
  · intro head block
    exact overflows_iff

end GaslessRelay.Settlement
