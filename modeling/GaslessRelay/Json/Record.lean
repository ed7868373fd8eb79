import GaslessRelay.Json.Basic
import GaslessRelay.Text.Hex
import GaslessRelay.Text.Numeral

/-!
Reading of JSON values as records and as the leaves of records. A record is an object with its
fields by name, unknown names left aside, or an array of its fields in order.
-/

namespace GaslessRelay.Json

def named (members : List (String × Json)) (name : String) : List Json :=
  (members.filter (·.1 = name)).map Prod.snd

/-- The values of a record's fields, absent ones left out; a name must not repeat. -/
def record? (names : List String) (json : Json) : Option (List (Option Json)) :=
  match json with
  | object members =>
    names.mapM fun name =>
      match named members name with
      | [] => some none
      | [value] => some (some value)
      | _ => none
  | array items =>
    if items.length ≤ names.length then
      some (items.map some ++ List.replicate (names.length - items.length) none)
    else none
  | _ => none

def required? {α : Type} (read : Json → Option α) (field : Option Json) : Option α :=
  field.bind read

def withDefault? {α : Type} (default : α) (read : Json → Option α) (field : Option Json) :
    Option α :=
  match field with
  | none => some default
  | some json => read json

def nullable? {α : Type} (read : Json → Option α) (json : Json) : Option (Option α) :=
  match json with
  | null => some none
  | json => (read json).map some

def uint64? (json : Json) : Option UInt64 :=
  (json.natural?.filter (· < UInt64.size)).map UInt64.ofNat

def uint32? (json : Json) : Option UInt32 :=
  (json.natural?.filter (· < UInt32.size)).map UInt32.ofNat

def byte? (json : Json) : Option UInt8 :=
  (json.natural?.filter (· < UInt8.size)).map UInt8.ofNat

/-- Bytes in hexadecimal text or as an array. -/
def bytes? (json : Json) : Option Bytes :=
  match json with
  | string text => (Text.Hex.decodePrefixed (Bytes.ofString text)).toOption
  | array items => items.mapM byte?
  | _ => none

/-- A fixed number of bytes in hexadecimal text or as an array, which may hold one item more that is
no byte. -/
def fixedBytes? (length : Nat) (json : Json) : Option Bytes :=
  match json with
  | string text => (Text.Hex.decodeFixed length (Bytes.ofString text)).toOption
  | array items => do
    let bytes ← (items.take length).mapM byte?
    match bytes.length == length, (items.drop length).map byte? with
    | true, [] | true, [none] => return bytes
    | _, _ => none
  | _ => none

/-- An address in hexadecimal text or as an array of bytes. -/
def address? (json : Json) : Option Address := (fixedBytes? 20 json).map addressOfBytes

def items? {α : Type} (read : Json → Option α) (json : Json) : Option (List α) :=
  json.array?.bind (·.mapM read)

def ofBytes (bytes : Bytes) : Json := string (Text.Hex.encodePrefixed bytes)

def ofAddress (address : Address) : Json := ofBytes (addressBytes address)

def ofUInt64 (number : UInt64) : Json := ofNat number.toNat

end GaslessRelay.Json
