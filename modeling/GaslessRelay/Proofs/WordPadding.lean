import GaslessRelay.Bytes

/-!
Zero bytes at the ends of a byte string, told from its number: those at the end are a remainder of
zero, and those at the front a bound. A word and its 32 bytes are the same number.
-/

namespace GaslessRelay

namespace Bytes

theorem toNat_eq_zero_iff (bytes : Bytes) : toNat bytes = 0 ↔ isZero bytes = true := by
  induction bytes with
  | nil => simp [isZero]
  | cons byte rest ih =>
    have weight : Nat.pow 256 rest.length ≠ 0 := Nat.ne_of_gt (Nat.pow_pos (by decide))
    have isZero_cons : isZero (byte :: rest) = (byte == 0 && isZero rest) := rfl
    have zero_byte : byte.toNat = 0 ↔ byte = 0 := by
      rw [← UInt8.toNat_inj, UInt8.toNat_zero]
    rw [toNat_cons, isZero_cons, Nat.add_eq_zero_iff, Nat.mul_eq_zero, or_iff_left weight, ih,
      zero_byte, Bool.and_eq_true, beq_iff_eq]

@[simp] theorem toNat_zeros (count : Nat) : toNat (zeros count) = 0 :=
  (toNat_eq_zero_iff _).2 (isZero_zeros count)

/-- The number of a byte string cut in two. -/
theorem toNat_eq_take_add_drop (bytes : Bytes) (count : Nat) :
    toNat bytes
      = toNat (bytes.take count) * Nat.pow 256 (bytes.length - count)
        + toNat (bytes.drop count) := by
  have parts := toNat_append (bytes.take count) (bytes.drop count)
  rwa [List.take_append_drop, List.length_drop] at parts

variable {bytes : Bytes} {size count : Nat}

theorem toNat_drop (length : bytes.length = size) :
    toNat (bytes.drop count) = toNat bytes % Nat.pow 256 (size - count) := by
  have small := toNat_lt (bytes.drop count)
  rw [List.length_drop, length] at small
  rw [toNat_eq_take_add_drop bytes count, length, Nat.mul_comm, Nat.mul_add_mod,
    Nat.mod_eq_of_lt small]

theorem toNat_take (length : bytes.length = size) :
    toNat (bytes.take count) = toNat bytes / Nat.pow 256 (size - count) := by
  have small := toNat_lt (bytes.drop count)
  rw [List.length_drop, length] at small
  have weight : 0 < Nat.pow 256 (size - count) := Nat.pow_pos (by decide)
  rw [toNat_eq_take_add_drop bytes count, length, Nat.mul_comm, Nat.mul_add_div weight,
    Nat.div_eq_of_lt small, Nat.add_zero]

/-- The bytes behind the first `count` are zero just when the number is a multiple of their
weight. -/
theorem isZero_drop_iff (length : bytes.length = size) :
    isZero (bytes.drop count) = true ↔ toNat bytes % Nat.pow 256 (size - count) = 0 := by
  rw [← toNat_eq_zero_iff, toNat_drop length]

/-- The first `count` bytes are zero just when the number lies below their weight. -/
theorem isZero_take_iff (length : bytes.length = size) :
    isZero (bytes.take count) = true ↔ toNat bytes < Nat.pow 256 (size - count) := by
  have weight : Nat.pow 256 (size - count) ≠ 0 := Nat.ne_of_gt (Nat.pow_pos (by decide))
  rw [← toNat_eq_zero_iff, toNat_take length, Nat.div_eq_zero_iff, or_iff_right weight]

end Bytes

theorem toNat_wordBytes (word : Word) : Bytes.toNat (wordBytes word) = word.toNat := by
  rw [wordBytes, Bytes.toNat_ofNat]
  exact Nat.mod_eq_of_lt word.isLt

theorem toNat_wordOfBytes {bytes : Bytes} (length : bytes.length = 32) :
    (wordOfBytes bytes).toNat = bytes.toNat := by
  rw [← toNat_wordBytes, wordBytes_wordOfBytes length]

end GaslessRelay
