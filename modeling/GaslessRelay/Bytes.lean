/-!
Byte strings and the big-endian numbers written in them. Main statements: reading back what was
written gives the number modulo the width, and writing what was read gives the bytes again.
-/

namespace GaslessRelay

abbrev Bytes := List UInt8

/-- A 32-byte ABI word, also the range of every unsigned integer of the protocol. -/
abbrev Word := BitVec 256

abbrev Hash := BitVec 256

abbrev Address := BitVec 160

abbrev Selector := BitVec 32

namespace Bytes

/-- The number that a byte string spells, most significant byte first. -/
def toNat (bytes : Bytes) : Nat :=
  bytes.foldl (fun total byte => total * 256 + byte.toNat) 0

/-- The lowest `width` bytes of a number, most significant byte first. -/
def ofNat : (width : Nat) → Nat → Bytes
  | 0, _ => []
  | width + 1, number => UInt8.ofNat (number >>> (8 * width)) :: ofNat width number

def zeros (count : Nat) : Bytes := List.replicate count 0

def isZero (bytes : Bytes) : Bool := bytes.all (· == 0)

/-- The `length` bytes from `offset` on, if the string reaches that far. -/
def slice? (bytes : Bytes) (offset length : Nat) : Option Bytes :=
  let part := (bytes.drop offset).take length
  if offset ≤ bytes.length ∧ part.length = length then some part else none

def ofString (text : String) : Bytes := text.toUTF8.toList

def toString? (bytes : Bytes) : Option String := String.fromUTF8? ⟨bytes.toArray⟩

@[simp] theorem length_ofNat (width number : Nat) : (ofNat width number).length = width := by
  induction width with
  | zero => rfl
  | succ width ih => simp [ofNat, ih]

theorem foldl_toNat (bytes : Bytes) (start : Nat) :
    bytes.foldl (fun total byte => total * 256 + byte.toNat) start
      = start * Nat.pow 256 bytes.length + bytes.toNat := by
  induction bytes generalizing start with
  | nil => simp [toNat]
  | cons byte rest ih =>
    simp only [toNat, List.foldl_cons, ih (start * 256 + byte.toNat), ih (0 * 256 + byte.toNat),
      List.length_cons, Nat.pow_eq, Nat.pow_succ]
    simp only [Nat.add_mul, Nat.mul_assoc, Nat.zero_mul, Nat.zero_add, Nat.add_assoc,
      Nat.mul_comm 256]

@[simp] theorem toNat_nil : toNat [] = 0 := rfl

theorem toNat_cons (byte : UInt8) (rest : Bytes) :
    toNat (byte :: rest) = byte.toNat * Nat.pow 256 rest.length + toNat rest := by
  simp [toNat, foldl_toNat rest byte.toNat]

theorem toNat_append (first second : Bytes) :
    toNat (first ++ second) = toNat first * Nat.pow 256 second.length + toNat second := by
  simp only [toNat, List.foldl_append]
  exact foldl_toNat second _

theorem toNat_lt (bytes : Bytes) : toNat bytes < Nat.pow 256 bytes.length := by
  rw [Nat.pow_eq]
  induction bytes with
  | nil => simp
  | cons byte rest ih =>
    have byte_lt : byte.toNat < 256 := byte.toNat_lt
    rw [toNat_cons, List.length_cons, Nat.pow_eq, Nat.pow_succ, Nat.mul_comm (256 ^ rest.length)]
    calc byte.toNat * 256 ^ rest.length + toNat rest
        < byte.toNat * 256 ^ rest.length + 256 ^ rest.length := by omega
      _ = (byte.toNat + 1) * 256 ^ rest.length := by rw [Nat.add_mul, Nat.one_mul]
      _ ≤ 256 * 256 ^ rest.length := Nat.mul_le_mul_right _ byte_lt

/-- Reading what was written gives the number modulo the width. -/
theorem toNat_ofNat (width number : Nat) :
    toNat (ofNat width number) = number % Nat.pow 256 width := by
  rw [Nat.pow_eq]
  induction width with
  | zero => simp [ofNat, Nat.mod_one]
  | succ width ih =>
    rw [ofNat, toNat_cons, length_ofNat, ih, Nat.shiftRight_eq_div_pow, Nat.pow_eq, Nat.pow_succ,
      Nat.mod_mul, UInt8.toNat_ofNat', Nat.pow_mul, Nat.mul_comm, Nat.add_comm]

/-- Writing depends only on the number modulo the width. -/
theorem ofNat_mod (width number : Nat) :
    ofNat width (number % Nat.pow 256 width) = ofNat width number := by
  suffices h : ∀ k, width ≤ k → ofNat width (number % 256 ^ k) = ofNat width number from
    h width (Nat.le_refl _)
  induction width with
  | zero => intros; rfl
  | succ width ih =>
    intro k hk
    rw [ofNat, ofNat, ih k (by omega)]
    congr 1
    apply UInt8.toNat_inj.1
    simp only [UInt8.toNat_ofNat', Nat.shiftRight_eq_div_pow, Nat.pow_mul]
    have pow_split : (256 : Nat) ^ k = 256 ^ width * 256 ^ (k - width) := by
      rw [← Nat.pow_add]; congr 1; omega
    have pow_rest : (256 : Nat) ^ (k - width) = 256 * 256 ^ (k - width - 1) := by
      rw [← Nat.pow_succ']; congr 1; omega
    show number % 256 ^ k / (2 ^ 8) ^ width % 2 ^ 8 = number / (2 ^ 8) ^ width % 2 ^ 8
    rw [pow_split, show (2 : Nat) ^ 8 = 256 from rfl, Nat.mod_mul_right_div_self, pow_rest,
      Nat.mod_mul_right_mod]

/-- Writing what was read gives the same bytes. -/
theorem ofNat_toNat (bytes : Bytes) : ofNat bytes.length (toNat bytes) = bytes := by
  induction bytes with
  | nil => rfl
  | cons byte rest ih =>
    have rest_lt := toNat_lt rest
    rw [Nat.pow_eq] at rest_lt
    rw [List.length_cons, ofNat, toNat_cons, Nat.pow_eq]
    congr 1
    · apply UInt8.toNat_inj.1
      rw [UInt8.toNat_ofNat', Nat.shiftRight_eq_div_pow, Nat.pow_mul,
        show (2 : Nat) ^ 8 = 256 from rfl, Nat.add_comm,
        Nat.add_mul_div_right _ _ (Nat.pow_pos (by decide)), Nat.div_eq_of_lt rest_lt,
        Nat.zero_add, Nat.mod_eq_of_lt byte.toNat_lt]
    · rw [← ofNat_mod, Nat.pow_eq, Nat.mul_comm, Nat.mul_add_mod, Nat.mod_eq_of_lt rest_lt, ih]

theorem toNat_inj {first second : Bytes} (same_length : first.length = second.length)
    (same_number : toNat first = toNat second) : first = second := by
  rw [← ofNat_toNat first, ← ofNat_toNat second, same_length, same_number]

@[simp] theorem length_zeros (count : Nat) : (zeros count).length = count := by simp [zeros]

@[simp] theorem isZero_zeros (count : Nat) : isZero (zeros count) = true := by
  simp [isZero, zeros]

theorem isZero_iff (bytes : Bytes) : isZero bytes = true ↔ bytes = zeros bytes.length := by
  simp [isZero, zeros, List.eq_replicate_iff]

theorem slice?_eq_some {bytes part : Bytes} {offset length : Nat} :
    slice? bytes offset length = some part ↔
      offset + length ≤ bytes.length ∧ part = (bytes.drop offset).take length := by
  simp only [slice?]
  split
  · rename_i h
    simp only [List.length_take, List.length_drop] at h
    simp only [Option.some.injEq]
    constructor
    · rintro rfl; exact ⟨by omega, rfl⟩
    · rintro ⟨-, rfl⟩; rfl
  · rename_i h
    simp only [List.length_take, List.length_drop] at h
    simp only [reduceCtorEq, false_iff]
    rintro ⟨_, -⟩
    apply h
    omega

end Bytes

/-- A fixed-width value as its big-endian bytes. -/
def wordBytes (word : Word) : Bytes := Bytes.ofNat 32 word.toNat

def wordOfBytes (bytes : Bytes) : Word := BitVec.ofNat 256 bytes.toNat

def addressBytes (address : Address) : Bytes := Bytes.ofNat 20 address.toNat

def addressOfBytes (bytes : Bytes) : Address := BitVec.ofNat 160 bytes.toNat

def selectorBytes (selector : Selector) : Bytes := Bytes.ofNat 4 selector.toNat

def selectorOfBytes (bytes : Bytes) : Selector := BitVec.ofNat 32 bytes.toNat

@[simp] theorem length_wordBytes (word : Word) : (wordBytes word).length = 32 := by simp [wordBytes]

@[simp] theorem length_addressBytes (address : Address) : (addressBytes address).length = 20 := by
  simp [addressBytes]

@[simp] theorem length_selectorBytes (selector : Selector) :
    (selectorBytes selector).length = 4 := by
  simp [selectorBytes]

@[simp] theorem wordOfBytes_wordBytes (word : Word) : wordOfBytes (wordBytes word) = word := by
  apply BitVec.eq_of_toNat_eq
  have bound := word.isLt
  simpa [wordOfBytes, wordBytes, Bytes.toNat_ofNat] using bound

theorem wordBytes_wordOfBytes {bytes : Bytes} (length_eq : bytes.length = 32) :
    wordBytes (wordOfBytes bytes) = bytes := by
  have bound := Bytes.toNat_lt bytes
  rw [length_eq] at bound
  rw [wordBytes, wordOfBytes, BitVec.toNat_ofNat, Nat.mod_eq_of_lt (by simpa using bound)]
  rw [← length_eq]
  exact Bytes.ofNat_toNat bytes

@[simp] theorem addressOfBytes_addressBytes (address : Address) :
    addressOfBytes (addressBytes address) = address := by
  apply BitVec.eq_of_toNat_eq
  have bound := address.isLt
  simpa [addressOfBytes, addressBytes, Bytes.toNat_ofNat] using bound

theorem addressBytes_addressOfBytes {bytes : Bytes} (length_eq : bytes.length = 20) :
    addressBytes (addressOfBytes bytes) = bytes := by
  have bound := Bytes.toNat_lt bytes
  rw [length_eq] at bound
  rw [addressBytes, addressOfBytes, BitVec.toNat_ofNat, Nat.mod_eq_of_lt (by simpa using bound)]
  rw [← length_eq]
  exact Bytes.ofNat_toNat bytes

@[simp] theorem selectorOfBytes_selectorBytes (selector : Selector) :
    selectorOfBytes (selectorBytes selector) = selector := by
  apply BitVec.eq_of_toNat_eq
  have bound := selector.isLt
  simpa [selectorOfBytes, selectorBytes, Bytes.toNat_ofNat] using bound

end GaslessRelay
