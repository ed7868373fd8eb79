import GaslessRelay.Bytes

/-!
Integers that payloads spell as text: decimal numerals, and unsigned ones also with the base given
by `0x`, `0o` or `0b`. Underscores separate digits and count for nothing; no digits spell zero.
-/

namespace GaslessRelay.Text.Integer

inductive Fault where
  | badDigit (byte : UInt8)
  | tooLarge
deriving DecidableEq, Repr

def limit : Nat := Nat.pow 2 256

/-- The value of a digit or letter in bases up to 36. -/
def digitValue? (byte : UInt8) : Option Nat :=
  if 48 ≤ byte ∧ byte ≤ 57 then some (byte.toNat - 48)
  else if 97 ≤ byte ∧ byte ≤ 122 then some (byte.toNat - 87)
  else if 65 ≤ byte ∧ byte ≤ 90 then some (byte.toNat - 55)
  else none

def digit (base : Nat) (byte : UInt8) : Except Fault Nat :=
  match digitValue? byte with
  | some value => if value < base then .ok value else .error (.badDigit byte)
  | none => .error (.badDigit byte)

def appendGroup (total group count : Nat) : Except Fault Nat :=
  let next := total * Nat.pow 10 count + group
  if next < limit then .ok next else .error .tooLarge

/-- How many decimal digits are read between two checks of the range. -/
def groupSize : Nat := 19

/-- Decimal digits from the left. The range is checked after every full group and at the end, so a
bad digit later in the same group is reported before an excess. -/
def readGroups (total group count : Nat) : Bytes → Except Fault Nat
  | [] => appendGroup total group count
  | byte :: rest =>
    if byte = 95 then readGroups total group count rest
    else do
      let value ← digit 10 byte
      if count + 1 = groupSize then
        let next ← appendGroup total (group * 10 + value) groupSize
        readGroups next 0 0 rest
      else readGroups total (group * 10 + value) (count + 1) rest

def readDecimal (text : Bytes) : Except Fault Nat := readGroups 0 0 0 text

/-- Digits of `2 ^ width` from the right; `shift` bits are already read. -/
def readBits (width : Nat) : (shift total : Nat) → (reversed : Bytes) → Except Fault Nat
  | _, total, [] => .ok total
  | shift, total, byte :: rest =>
    if byte = 95 then readBits width shift total rest
    else do
      let value ← digit (Nat.pow 2 width) byte
      let next := total + value * Nat.pow 2 shift
      if value * Nat.pow 2 shift < limit then readBits width (shift + width) next rest
      else .error .tooLarge

def readUnsigned (text : Bytes) : Except Fault Nat :=
  match text with
  | 48 :: 120 :: digits | 48 :: 88 :: digits => readBits 4 0 0 digits.reverse
  | 48 :: 111 :: digits | 48 :: 79 :: digits => readBits 3 0 0 digits.reverse
  | 48 :: 98 :: digits | 48 :: 66 :: digits => readBits 1 0 0 digits.reverse
  | digits => readDecimal digits

def readSigned (text : Bytes) : Except Fault Int :=
  match text with
  | 45 :: digits => do
    let size ← readDecimal digits
    if 2 * size ≤ limit then .ok (-size) else .error .tooLarge
  | 43 :: digits => positive digits
  | digits => positive digits
where
  positive (digits : Bytes) : Except Fault Int := do
    let size ← readDecimal digits
    if 2 * size < limit then .ok size else .error .tooLarge

end GaslessRelay.Text.Integer
