import GaslessRelay.Bytes
import GaslessRelay.Client.Error

/-!
Reading of base64 text with its padding.
-/

namespace GaslessRelay.Text.Base64

def symbolValue? (byte : UInt8) : Option Nat :=
  if 65 ≤ byte ∧ byte ≤ 90 then some (byte.toNat - 65)
  else if 97 ≤ byte ∧ byte ≤ 122 then some (byte.toNat - 71)
  else if 48 ≤ byte ∧ byte ≤ 57 then some (byte.toNat + 4)
  else if byte = 43 then some 62
  else if byte = 47 then some 63
  else none

def pad : UInt8 := 61

def symbol (offset : Nat) (byte : UInt8) : Except Base64Fault Nat :=
  match symbolValue? byte with
  | some value => .ok value
  | none => .error (.badSymbol byte offset)

def readGroups : (offset : Nat) → Bytes → Except Base64Fault Bytes
  | offset, a :: b :: c :: d :: rest => do
    let first ← symbol offset a
    let second ← symbol (offset + 1) b
    let third ← symbol (offset + 2) c
    let fourth ← symbol (offset + 3) d
    let group := ((first * 64 + second) * 64 + third) * 64 + fourth
    return Bytes.ofNat 3 group ++ (← readGroups (offset + 4) rest)
  | _, _ => .ok []

/-- The values of the symbols of the last group, and the padding after them. `position` counts the
symbols of the group so far; `padding` is the first padding symbol's offset and their number. -/
def readLast (offset : Nat) : (position : Nat) → (padding : Option (Nat × Nat)) →
    (values : List Nat) → Bytes → Except Base64Fault (List Nat × Nat)
  | _, padding, values, [] => .ok (values.reverse, (padding.map Prod.snd).getD 0)
  | position, padding, values, byte :: rest =>
    if byte = pad then
      if position < 2 then .error (.badSymbol byte (offset + position))
      else
        let next := match padding with
          | none => (position, 1)
          | some (first, count) => (first, count + 1)
        readLast offset (position + 1) (some next) values rest
    else
      match padding with
      | some (first, _) => .error (.badSymbol pad (offset + first))
      | none => do
        let value ← symbol (offset + position) byte
        readLast offset (position + 1) none (value :: values) rest

/-- The bytes of the last group, which may be incomplete. Bits that fill no byte must be zero. -/
def decodeLast (offset : Nat) (group : Bytes) : Except Base64Fault Bytes := do
  let (values, padding) ← readLast offset 0 none [] group
  if values.length < 2 then .error (.badLength (offset + values.length))
  if (padding + values.length) % 4 ≠ 0 then .error .badPadding
  let bits := values.foldl (fun total value => total * 64 + value) 0
  let byteCount := values.length * 6 / 8
  let spare := values.length * 6 - byteCount * 8
  if bits % Nat.pow 2 spare ≠ 0 then
    .error (.badLastSymbol (group.getD (values.length - 1) 0) (offset + values.length - 1))
  return Bytes.ofNat byteCount (bits / Nat.pow 2 spare)

/-- The bytes that a text spells. A byte after full groups that is no symbol is reported first. -/
def decode (text : Bytes) : Except Base64Fault Bytes :=
  let excess := text.length % 4
  let lastByte := text.getLastD 0
  if excess = 1 ∧ lastByte ≠ pad ∧ symbolValue? lastByte = none then
    .error (.badSymbol lastByte (text.length - 1))
  else if text.isEmpty then .ok []
  else do
    let offset := text.length - (if excess = 0 then 4 else excess)
    let start ← readGroups 0 (text.take offset)
    let last ← decodeLast offset (text.drop offset)
    return start ++ last

end GaslessRelay.Text.Base64
