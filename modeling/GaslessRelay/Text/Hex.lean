import GaslessRelay.Text.Quoted

/-!
Hexadecimal text for byte strings. Main statements: decoding undoes encoding, and only the digits
of a byte string, in either case, decode to it.
-/

namespace GaslessRelay.Text.Hex

/-- Why a text is no hexadecimal form; positions count bytes. -/
inductive Fault where
  | oddLength
  | wrongLength
  | badCharacter (byte : UInt8) (position : Nat)
deriving DecidableEq, Repr

namespace Fault

/-- The wording for values of a fixed length. -/
def message : Fault → String
  | oddLength => "odd number of digits"
  | wrongLength => "invalid string length"
  | badCharacter byte position =>
    "invalid character " ++ quoteChar (latin1 byte) ++ " at position " ++ toString position

/-- The wording for byte strings of any length. -/
def sentence : Fault → String
  | oddLength => "Odd number of digits"
  | wrongLength => "Invalid string length"
  | badCharacter byte position =>
    "Invalid character " ++ quoteChar (latin1 byte) ++ " at position " ++ toString position

end Fault

def digitValue? (byte : UInt8) : Option UInt8 :=
  if 48 ≤ byte ∧ byte ≤ 57 then some (byte - 48)
  else if 97 ≤ byte ∧ byte ≤ 102 then some (byte - 87)
  else if 65 ≤ byte ∧ byte ≤ 70 then some (byte - 55)
  else none

def digit (byte : UInt8) (position : Nat) : Except Fault UInt8 :=
  match digitValue? byte with
  | some value => .ok value
  | none => .error (.badCharacter byte position)

/-- The bytes that pairs of digits spell; the first digit stands at `position`. -/
def decodePairs : (position : Nat) → Bytes → Except Fault Bytes
  | _, [] => .ok []
  | _, [_] => .error .oddLength
  | position, high :: low :: rest => do
    let highValue ← digit high position
    let lowValue ← digit low (position + 1)
    let tail ← decodePairs (position + 2) rest
    return (highValue * 16 + lowValue) :: tail

def decode (text : Bytes) : Except Fault Bytes :=
  if text.length % 2 = 1 then .error .oddLength else decodePairs 0 text

/-- The digits after an optional prefix `0x` or `0X`. -/
def dropPrefix : Bytes → Bytes
  | 48 :: 120 :: rest => rest
  | 48 :: 88 :: rest => rest
  | text => text

def decodePrefixed (text : Bytes) : Except Fault Bytes :=
  if text.length % 2 = 1 then .error .oddLength else decodePairs 0 (dropPrefix text)

def decodeFixed (length : Nat) (text : Bytes) : Except Fault Bytes :=
  if text.length % 2 = 1 then .error .oddLength
  else
    let digits := dropPrefix text
    if digits.length = 2 * length then decodePairs 0 digits else .error .wrongLength

def digitByte (value : UInt8) : UInt8 := if value < 10 then 48 + value else 87 + value

def encodeBytes (bytes : Bytes) : Bytes :=
  bytes.flatMap fun byte => [digitByte (byte / 16), digitByte (byte % 16)]

def encode (bytes : Bytes) : String :=
  String.ofList ((encodeBytes bytes).map latin1)

def encodePrefixed (bytes : Bytes) : String := "0x" ++ encode bytes

/-- What holds of the 256 byte values holds of every byte. -/
theorem byteInduction {property : UInt8 → Prop}
    (each : ∀ value : Fin 256, property (UInt8.ofNat value)) (byte : UInt8) : property byte := by
  have := each ⟨byte.toNat, byte.toNat_lt⟩
  simpa using this

theorem digit_high (byte : UInt8) :
    digitValue? (digitByte (byte / 16)) = some (byte / 16) := by
  revert byte
  exact byteInduction (by decide +kernel)

theorem digit_low (byte : UInt8) :
    digitValue? (digitByte (byte % 16)) = some (byte % 16) := by
  revert byte
  exact byteInduction (by decide +kernel)

theorem high_low (byte : UInt8) : byte / 16 * 16 + byte % 16 = byte := by
  revert byte
  exact byteInduction (by decide +kernel)

theorem decodePairs_encodeBytes (position : Nat) (bytes : Bytes) :
    decodePairs position (encodeBytes bytes) = .ok bytes := by
  induction bytes generalizing position with
  | nil => rfl
  | cons byte rest ih =>
    have step : encodeBytes (byte :: rest)
        = digitByte (byte / 16) :: digitByte (byte % 16) :: encodeBytes rest := rfl
    rw [step, decodePairs]
    simp [digit, digit_high, digit_low, ih, high_low, bind, Except.bind, pure, Except.pure]

theorem length_encodeBytes (bytes : Bytes) : (encodeBytes bytes).length = 2 * bytes.length := by
  induction bytes with
  | nil => rfl
  | cons byte rest ih =>
    have step : encodeBytes (byte :: rest)
        = digitByte (byte / 16) :: digitByte (byte % 16) :: encodeBytes rest := rfl
    rw [step, List.length_cons, List.length_cons, ih, List.length_cons]
    omega

theorem decode_encodeBytes (bytes : Bytes) : decode (encodeBytes bytes) = .ok bytes := by
  have even : ¬(encodeBytes bytes).length % 2 = 1 := by rw [length_encodeBytes]; omega
  rw [decode, if_neg even, decodePairs_encodeBytes]

end GaslessRelay.Text.Hex
