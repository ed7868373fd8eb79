import GaslessRelay.Proofs.BatchBlobs

/-!
The blobs of batches as a format. What is read from a blob is written back as the same blob
(`flatMap_of_decodeFrom`), so every batch has one blob and every blob that is read has one batch; a
blob that is cut short is read only where the cut stands between two elements
(`batches_match_blobs`).
-/

namespace GaslessRelay

theorem BatchMode.byte_of_ofByte? {byte : UInt8} {mode : BatchMode}
    (known : ofByte? byte = some mode) : mode.byte = byte := by
  unfold ofByte? at known
  split at known
  · rename_i zero
    cases known
    exact zero.symm
  · split at known <;> cases known
    rename_i one
    exact one.symm

namespace Batch

open Outcome

/-- A blob that has a header is its mode byte, the three fields behind it and what follows. -/
theorem header_eq {blob : Bytes} (whole : headerLength ≤ blob.length) :
    blob = [blob.headD 0] ++ ((blob.drop 1).take 20 ++ ((blob.drop 21).take 32 ++
      ((blob.drop 53).take 32 ++ blob.drop headerLength))) := by
  have number : (blob.drop 53).take 32 ++ blob.drop headerLength = blob.drop 53 := by
    have behind : blob.drop headerLength = (blob.drop 53).drop 32 := by
      rw [List.drop_drop]
      rfl
    rw [behind, List.take_append_drop]
  have value : (blob.drop 21).take 32 ++ blob.drop 53 = blob.drop 21 := by
    have behind : blob.drop 53 = (blob.drop 21).drop 32 := by rw [List.drop_drop]
    rw [behind, List.take_append_drop]
  have target : (blob.drop 1).take 20 ++ blob.drop 21 = blob.drop 1 := by
    have behind : blob.drop 21 = (blob.drop 1).drop 20 := by rw [List.drop_drop]
    rw [behind, List.take_append_drop]
  rw [number, value, target]
  cases blob with
  | nil => cases whole
  | cons byte rest => rfl

/-- An element is read only from the bytes that it is written as. -/
theorem encodeOne_of_decodeOne {blob rest : Bytes} {offset : Nat} {operation : BatchOperation}
    (read : decodeOne offset blob = .ok (operation, rest)) :
    encodeOne operation ++ rest = blob ∧ operation.payload.length < Nat.pow 2 256 := by
  unfold decodeOne at read
  split at read
  · cases read
  · rename_i whole
    have parted := header_eq (Nat.le_of_not_lt whole)
    dsimp only at read
    split at read
    · cases read
    · rename_i mode known
      split_ifs at read with value fits
      cases read
      have lengths : ((blob.drop 1).take 20).length = 20 ∧ ((blob.drop 21).take 32).length = 32 ∧
          ((blob.drop 53).take 32).length = 32 := by
        simp only [List.length_take, List.length_drop]
        simp only [headerLength] at whole
        omega
      have zeros : (blob.drop 21).take 32 = Bytes.zeros 32 := by
        have zero := (Bytes.isZero_iff ((blob.drop 21).take 32)).1 (by simpa using value)
        rwa [lengths.2.1] at zero
      have number := Bytes.toNat_lt ((blob.drop 53).take 32)
      rw [lengths.2.2] at number
      have inField : Bytes.toNat ((blob.drop 53).take 32) < Nat.pow 2 256 := number
      have payload : ((blob.drop headerLength).take
          (Bytes.toNat ((blob.drop 53).take 32))).length
            = Bytes.toNat ((blob.drop 53).take 32) := List.length_take_of_le fits
      have length : Abi.numberWord (Bytes.toNat ((blob.drop 53).take 32))
          = (blob.drop 53).take 32 := wordBytes_wordOfBytes lengths.2.2
      refine ⟨?_, by rwa [payload]⟩
      rw [encodeOne_eq, payload, length, BatchMode.byte_of_ofByte? known,
        addressBytes_addressOfBytes lengths.1, ← zeros, List.take_append_drop]
      exact parted.symm

theorem flatMap_of_decodeFrom {limit offset : Nat} {blob : Bytes}
    {operations : List BatchOperation} (read : decodeFrom limit offset blob = .ok operations) :
    operations.flatMap encodeOne = blob ∧
      ∀ operation ∈ operations, operation.payload.length < Nat.pow 2 256 := by
  induction limit generalizing offset blob operations with
  | zero =>
    cases blob with
    | nil =>
      cases read
      exact ⟨rfl, by simp⟩
    | cons byte bytes => cases read
  | succ limit ih =>
    cases blob with
    | nil =>
      cases read
      exact ⟨rfl, by simp⟩
    | cons byte bytes =>
      obtain ⟨⟨first, rest⟩, one, read⟩ := bind_eq_ok.1 read
      obtain ⟨others, more, read⟩ := bind_eq_ok.1 read
      cases read
      obtain ⟨written, fits⟩ := encodeOne_of_decodeOne one
      obtain ⟨restWritten, restFits⟩ := ih more
      refine ⟨by rw [List.flatMap_cons, restWritten, written], ?_⟩
      intro operation member
      rcases List.mem_cons.1 member with rfl | member
      · exact fits
      · exact restFits operation member

theorem decode_eq_ok {blob : Bytes} {operations : List BatchOperation} :
    decode blob = .ok operations ↔
      blob ≠ [] ∧ decodeFrom blob.length 0 blob = .ok operations := by
  unfold decode
  split
  · rename_i empty
    simp [List.isEmpty_iff.1 empty]
  · rename_i some
    have nonempty : blob ≠ [] := fun none => some (by simp [none])
    cases decodeFrom blob.length 0 blob with
    | ok read => simp [nonempty]
    | error fault => simp

/-- A blob that starts like another one holds a part of its elements. The induction is on the
elements of the shorter blob; an element is read alike from both. -/
theorem isPrefix_of_flatMap {first second : List BatchOperation}
    (fits : ∀ operation ∈ first, operation.payload.length < Nat.pow 2 256)
    (fits' : ∀ operation ∈ second, operation.payload.length < Nat.pow 2 256)
    (starts : first.flatMap encodeOne <+: second.flatMap encodeOne) : first <+: second := by
  induction first generalizing second with
  | nil => exact List.nil_prefix
  | cons operation rest ih =>
    obtain ⟨more, whole⟩ := starts
    cases second with
    | nil =>
      have length := congrArg List.length whole
      simp only [List.flatMap_cons, List.length_append, length_encodeOne, encodedLength,
        headerLength, List.flatMap_nil, List.length_nil] at length
      omega
    | cons other others =>
      rw [List.flatMap_cons, List.flatMap_cons, List.append_assoc] at whole
      have one := decodeOne_encodeOne (rest.flatMap encodeOne ++ more) 0
        (fits operation List.mem_cons_self)
      rw [whole, decodeOne_encodeOne _ 0 (fits' other List.mem_cons_self)] at one
      simp only [Except.ok.injEq, Prod.mk.injEq] at one
      obtain ⟨rfl, behind⟩ := one
      have within := ih (fun entry member => fits entry (List.mem_cons_of_mem _ member))
        (fun entry member => fits' entry (List.mem_cons_of_mem _ member)) ⟨more, behind.symm⟩
      exact (List.prefix_cons_inj _).2 within

theorem encode_eq_error {operations : List BatchOperation} {error : CodecError} :
    encode operations = .error error ↔ operations = [] ∧ error = .emptyBatch := by
  cases operations with
  | nil =>
    constructor
    · intro refused
      cases refused
      exact ⟨rfl, rfl⟩
    · rintro ⟨-, rfl⟩
      rfl
  | cons operation rest => simp [encode]

theorem encode_of_decode {blob : Bytes} {operations : List BatchOperation}
    (read : decode blob = .ok operations) :
    operations ≠ [] ∧ encode operations = .ok blob ∧
      ∀ operation ∈ operations, operation.payload.length < Nat.pow 2 256 := by
  obtain ⟨nonempty, read⟩ := decode_eq_ok.1 read
  obtain ⟨written, fits⟩ := flatMap_of_decodeFrom read
  have some : operations ≠ [] := by
    rintro rfl
    exact nonempty written.symm
  exact ⟨some, by rw [encode_eq_ok some, written], fits⟩

/-- A part of a blob is the blob of the leading elements, or it is corrupt. -/
theorem decode_cut {blob cut : Bytes} {operations : List BatchOperation}
    (read : decode blob = .ok operations) (starts : cut <+: blob) (some : cut ≠ [])
    (proper : cut ≠ blob) :
    (∃ count, 0 < count ∧ count < operations.length ∧
      encode (operations.take count) = .ok cut ∧ decode cut = .ok (operations.take count)) ∨
    (∀ count, encode (operations.take count) ≠ .ok cut) ∧
      ∃ fault, decode cut = .error (.corruptBatch fault) := by
  obtain ⟨nonempty, written, fits⟩ := encode_of_decode read
  rw [encode_eq_ok nonempty] at written
  cases written
  cases decoded : decode cut with
  | ok first =>
    obtain ⟨someFirst, written, firstFits⟩ := encode_of_decode decoded
    rw [encode_eq_ok someFirst] at written
    cases written
    have leading := isPrefix_of_flatMap firstFits fits starts
    have taken := List.prefix_iff_eq_take.1 leading
    refine .inl ⟨first.length, List.length_pos_iff.2 someFirst, ?_, ?_, ?_⟩
    · refine Nat.lt_of_le_of_ne leading.length_le fun same => proper ?_
      rw [leading.eq_of_length same]
    · rw [← taken, encode_eq_ok someFirst]
    · rw [← taken]
  | error error =>
    refine .inr ⟨fun count whole => ?_, ?_⟩
    · have leading : operations.take count ≠ [] := by
        intro none
        rw [none] at whole
        cases whole
      rw [encode_eq_ok leading] at whole
      cases whole
      rw [decode_encode leading fun operation member =>
        fits operation (List.mem_of_mem_take member)] at decoded
      cases decoded
    · unfold decode at decoded
      rw [if_neg (by simpa using some)] at decoded
      split at decoded <;> cases decoded
      exact ⟨_, rfl⟩

/-- Batches and blobs match one to one: only the empty batch has no blob, a blob is read as the
batch that it is written from, and what is read is written back as the same blob. A blob that is cut
short is read only at the end of an element, and then as the elements before the cut. -/
theorem batches_match_blobs (operations : List BatchOperation) (blob : Bytes) :
    (∀ error, encode operations = .error error ↔ operations = [] ∧ error = .emptyBatch) ∧
    (operations ≠ [] →
      (∀ operation ∈ operations, operation.payload.length < Text.wordLimit) →
      ∃ written, encode operations = .ok written ∧ decode written = .ok operations) ∧
    (decode blob = .ok operations →
      operations ≠ [] ∧ encode operations = .ok blob ∧
      ∀ cut, cut <+: blob → cut ≠ [] → cut ≠ blob →
        (∃ count, 0 < count ∧ count < operations.length ∧
          encode (operations.take count) = .ok cut ∧
          decode cut = .ok (operations.take count)) ∨
        (∀ count, encode (operations.take count) ≠ .ok cut) ∧
          ∃ fault, decode cut = .error (.corruptBatch fault)) := by
  refine ⟨fun error => encode_eq_error, ?_, ?_⟩
  · intro some fits
    exact ⟨_, encode_eq_ok some, decode_encode some fun operation member =>
      inField_of_word (fits operation member)⟩
  · intro read
    obtain ⟨some, written, -⟩ := encode_of_decode read
    exact ⟨some, written, fun cut starts => decode_cut read starts⟩

theorem batches_match_blobs_pair :
    let operations : List BatchOperation :=
      [⟨.direct, 0x42, [0xde, 0xad]⟩, ⟨.delegated, 0x07, []⟩]
    let blob := operations.flatMap encodeOne
    encode operations = .ok blob ∧ decode blob = .ok operations ∧
      decode (blob.take 87) = .ok (operations.take 1) ∧
      ∃ fault, decode (blob.take 100) = .error (.corruptBatch fault) := by
  intro operations blob
  obtain ⟨-, back, forth⟩ := batches_match_blobs operations blob
  obtain ⟨written, same, read⟩ := back (by decide) (by decide)
  cases same
  obtain ⟨-, -, cuts⟩ := forth read
  refine ⟨rfl, read, ?_, ?_⟩
  · -- The first element takes up 87 bytes.
    have whole : encode (operations.take 1) = .ok (blob.take 87) := by rfl
    rcases cuts (blob.take 87) (List.take_prefix _ _) (by decide) (by decide) with
      ⟨count, positive, below, -, decoded⟩ | ⟨torn, -⟩
    · obtain rfl : count = 1 := by
        have two : operations.length = 2 := rfl
        omega
      exact decoded
    · exact absurd whole (torn 1)
  · rcases cuts (blob.take 100) (List.take_prefix _ _) (by decide) (by decide) with
      ⟨count, positive, below, whole, -⟩ | ⟨-, corrupt⟩
    · obtain rfl : count = 1 := by
        have two : operations.length = 2 := rfl
        omega
      exact absurd whole (by decide)
    · exact corrupt

end Batch

end GaslessRelay
