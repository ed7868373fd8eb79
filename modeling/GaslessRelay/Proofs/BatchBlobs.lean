import GaslessRelay.Batch
import GaslessRelay.Proofs.AbiPlacement
import GaslessRelay.Proofs.Outcome
import Mathlib.Algebra.GroupWithZero.Nat
import Mathlib.Data.List.Flatten
import Mathlib.Tactic.NthRewrite
import Mathlib.Tactic.SplitIfs

/-!
Blobs of batches. An element is read back from the front of a blob whatever stands behind it, so a
batch is read back from its blob (`Batch.decode_encode`); the elements that are read from a blob
fill it (`Batch.sum_of_decode`).
-/

namespace GaslessRelay.Batch

open Bytes (StandsAt)
open Outcome

/-- A length of 64 bits fits in its field of 32 bytes. -/
theorem inField_of_word {length : Nat} (fits : length < Text.wordLimit) :
    length < Nat.pow 2 256 := Nat.lt_trans fits (by decide)

/-- What the header of an element holds. -/
theorem encodeOne_eq (operation : BatchOperation) (rest : Bytes) :
    encodeOne operation ++ rest
      = [operation.mode.byte] ++ (addressBytes operation.target ++ (Bytes.zeros 32 ++
          (Abi.numberWord operation.payload.length ++ (operation.payload ++ rest)))) := by
  simp [encodeOne]

theorem length_encodeOne (operation : BatchOperation) :
    (encodeOne operation).length = encodedLength operation := by
  simp [encodeOne, encodedLength, headerLength]
  omega

/-- An element whose length fits in its field is read back, whatever stands behind it. -/
theorem decodeOne_encodeOne {operation : BatchOperation} (rest : Bytes) (offset : Nat)
    (fits : operation.payload.length < Nat.pow 2 256) :
    decodeOne offset (encodeOne operation ++ rest) = .ok (operation, rest) := by
  have whole := Bytes.standsAt_self (encodeOne operation ++ rest)
  nth_rewrite 1 [encodeOne_eq] at whole
  have size : (encodeOne operation ++ rest).length
      = headerLength + operation.payload.length + rest.length := by
    rw [List.length_append, length_encodeOne, encodedLength]
  have mode : (encodeOne operation ++ rest).headD 0 = operation.mode.byte := rfl
  have target : ((encodeOne operation ++ rest).drop 1).take 20 = addressBytes operation.target := by
    simpa using whole.right.left.take_drop
  have value : ((encodeOne operation ++ rest).drop 21).take 32 = Bytes.zeros 32 := by
    simpa using whole.right.right.left.take_drop
  have number : ((encodeOne operation ++ rest).drop 53).take 32
      = Abi.numberWord operation.payload.length := by
    simpa using whole.right.right.right.left.take_drop
  have tail : (encodeOne operation ++ rest).drop headerLength = operation.payload ++ rest := by
    rw [encodeOne_eq]
    simp only [← List.append_assoc]
    rw [List.append_assoc]
    exact List.drop_left' (by simp [headerLength])
  have length : Bytes.toNat (Abi.numberWord operation.payload.length)
      = operation.payload.length := by
    simp only [Abi.numberWord, wordBytes, Bytes.toNat_ofNat, BitVec.toNat_ofNat]
    rw [Nat.mod_eq_of_lt fits]
    exact Nat.mod_eq_of_lt fits
  unfold decodeOne
  rw [if_neg (by omega)]
  simp only [mode, BatchMode.ofByte?_byte, target, value, number, tail, length,
    Bytes.isZero_zeros, Bool.not_true, Bool.false_eq_true, if_false, addressOfBytes_addressBytes,
    List.take_left', List.drop_left', List.length_append]
  exact if_pos (Nat.le_add_right _ _)

theorem decodeFrom_flatMap {operations : List BatchOperation}
    (fits : ∀ operation ∈ operations, operation.payload.length < Nat.pow 2 256) {limit : Nat}
    (enough : (operations.flatMap encodeOne).length ≤ limit) (offset : Nat) :
    decodeFrom limit offset (operations.flatMap encodeOne) = .ok operations := by
  induction operations generalizing limit offset with
  | nil => cases limit <;> rfl
  | cons operation rest ih =>
    have restFits := fun other member => fits other (List.mem_cons_of_mem _ member)
    have one := decodeOne_encodeOne (rest.flatMap encodeOne) offset (fits _ List.mem_cons_self)
    rw [List.flatMap_cons] at enough ⊢
    rw [List.length_append, length_encodeOne, encodedLength, headerLength] at enough
    obtain ⟨limit, rfl⟩ : ∃ fewer, limit = fewer + 1 := ⟨limit - 1, by omega⟩
    have others := ih restFits (by omega : _ ≤ limit) (offset + encodedLength operation)
    obtain ⟨byte, bytes, nonempty⟩ : ∃ byte bytes,
        encodeOne operation ++ rest.flatMap encodeOne = byte :: bytes := ⟨_, _, rfl⟩
    rw [nonempty] at one ⊢
    unfold decodeFrom
    rw [one, ok_bind]
    dsimp only
    rw [others]
    rfl

theorem encode_eq_ok {operations : List BatchOperation} (some : operations ≠ []) :
    encode operations = .ok (operations.flatMap encodeOne) := by
  unfold encode
  rw [if_neg (by simpa using some)]

theorem decode_encode {operations : List BatchOperation} (some : operations ≠ [])
    (fits : ∀ operation ∈ operations, operation.payload.length < Nat.pow 2 256) :
    decode (operations.flatMap encodeOne) = .ok operations := by
  have nonempty : ¬(operations.flatMap encodeOne).isEmpty = true := by
    cases operations with
    | nil => exact absurd rfl some
    | cons operation rest => simp [encodeOne]
  unfold decode
  rw [if_neg nonempty, decodeFrom_flatMap fits (Nat.le_refl _)]

theorem payload_le_length_flatMap {operations : List BatchOperation} :
    ∀ operation ∈ operations,
      headerLength + operation.payload.length ≤ (operations.flatMap encodeOne).length := by
  intro operation member
  have within := ((List.singleton_sublist.2 member).flatMap encodeOne).length_le
  rwa [List.flatMap_singleton, length_encodeOne] at within

theorem decodeOne_shrinks {blob rest : Bytes} {offset : Nat} {operation : BatchOperation}
    (read : decodeOne offset blob = .ok (operation, rest)) :
    operation.payload.length + rest.length + headerLength = blob.length := by
  unfold decodeOne at read
  split at read
  · cases read
  · rename_i whole
    dsimp only at read
    split at read
    · cases read
    · split_ifs at read with zero fits
      cases read
      simp only [List.length_take, List.length_drop] at fits ⊢
      omega

/-- The elements that are read fill the blob. -/
theorem sum_of_decodeFrom {limit offset : Nat} {blob : Bytes} {operations : List BatchOperation}
    (read : decodeFrom limit offset blob = .ok operations) :
    (operations.map encodedLength).sum = blob.length := by
  induction limit generalizing offset blob operations with
  | zero =>
    cases blob with
    | nil =>
      cases read
      rfl
    | cons byte rest => cases read
  | succ limit ih =>
    cases blob with
    | nil =>
      cases read
      rfl
    | cons byte bytes =>
      obtain ⟨⟨first, rest⟩, one, read⟩ := bind_eq_ok.1 read
      obtain ⟨others, more, read⟩ := bind_eq_ok.1 read
      cases read
      have shrunk := decodeOne_shrinks one
      have inRest := ih more
      rw [List.map_cons, List.sum_cons, encodedLength]
      omega

theorem sum_of_decode {blob : Bytes} {operations : List BatchOperation}
    (read : decode blob = .ok operations) :
    (operations.map encodedLength).sum = blob.length := by
  unfold decode at read
  split_ifs at read
  split at read
  · rename_i decoded
    cases read
    exact sum_of_decodeFrom decoded
  · cases read

end GaslessRelay.Batch
