import GaslessRelay.Abi.Value
import GaslessRelay.Json.Basic

/-!
Coercion of payload values to ABI types: integers come as numbers or numerals, byte strings as
hexadecimal text after `0x`.
-/

namespace GaslessRelay.Abi

/-- A result whose fault is reported for a field. -/
def forField {α : Type} (field : String) (result : Except ValueFault α) : Except CodecError α :=
  match result with
  | .ok value => .ok value
  | .error fault => .error (.invalidValue field fault)

def coerceAddress (json : Json) : Except ValueFault Address :=
  match json with
  | .string text =>
    match Text.Hex.decodeFixed 20 (Bytes.ofString text) with
    | .ok bytes => .ok (addressOfBytes bytes)
    | .error fault => .error (.badAddress fault)
  | _ => .error .notAddressText

def coerceBool (json : Json) : Except ValueFault Bool :=
  match json with
  | .bool value => .ok value
  | .string "true" => .ok true
  | .string "false" => .ok false
  | _ => .error .notBoolean

def coerceNat (json : Json) : Except ValueFault Nat :=
  match json with
  | .integer (.ofNat value) => .ok value
  | .string text =>
    match Text.Integer.readUnsigned (Bytes.ofString text) with
    | .ok value => .ok value
    | .error fault => .error (.badUnsigned fault)
  | _ => .error .notUnsigned

def coerceInt (json : Json) : Except ValueFault Int :=
  match json with
  | .integer value => .ok value
  | .string text =>
    match Text.Integer.readSigned (Bytes.ofString text) with
    | .ok value => .ok value
    | .error fault => .error (.badSigned fault)
  | _ => .error .notSigned

def coerceBytes (json : Json) : Except ValueFault Bytes :=
  match json with
  | .string text =>
    match Bytes.ofString text with
    | 48 :: 120 :: digits =>
      match Text.Hex.decode digits with
      | .ok bytes => .ok bytes
      | .error fault => .error (.badHex fault)
    | _ => .error .notHexText
  | _ => .error .notHexText

def coerceItems {ε : Type} (coerce : Json → Except ε AbiValue) :
    List Json → Except ε (List AbiValue)
  | [] => .ok []
  | item :: rest => do
    let value ← coerce item
    let values ← coerceItems coerce rest
    return value :: values

def coerce : AbiType → Json → Except ValueFault AbiValue
  | .address, json => .address <$> coerceAddress json
  | .bool, json => .bool <$> coerceBool json
  | .uint bits, json => do
    let value ← coerceNat json
    if value < Nat.pow 2 bits then return .uint (BitVec.ofNat 256 value)
    else .error (.exceedsUint bits)
  | .int bits, json => do
    let value ← coerceInt json
    let half : Int := Nat.pow 2 (bits - 1)
    if -half ≤ value ∧ value < half then return .int (BitVec.ofInt 256 value)
    else .error (.exceedsInt bits)
  | .fixedBytes size, json => do
    let content ← coerceBytes json
    if content.length = size then
      return .fixedBytes (wordOfBytes (content ++ Bytes.zeros (32 - size)))
    else .error (.wrongSize size content.length)
  | .bytes, json => .bytes <$> coerceBytes json
  | .string, json =>
    match json with
    | .string text => .ok (.string text)
    | _ => .error .notText
  | .array item, json =>
    match json with
    | .array items => .array <$> coerceItems (coerce item) items
    | _ => .error .notArray
  | .fixedArray item length, json =>
    match json with
    | .array items =>
      if items.length = length then .fixedArray <$> coerceItems (coerce item) items
      else .error (.wrongLength length items.length)
    | _ => .error .notArray

def fromPayload (field : String) (type : AbiType) (json : Json) : Except CodecError AbiValue :=
  forField field (coerce type json)

end GaslessRelay.Abi
