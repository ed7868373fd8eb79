import GaslessRelay.Abi.MachineReader
import GaslessRelay.Request.Basic

/-!
Requests as a machine of 64-bit numbers encodes them. The run stops at a field list that ends within
its header, at bytes that do not go into a word, and at signed integers without bits.
-/

namespace GaslessRelay.Machine

def difference (first second : Nat) : Run Nat :=
  if second ≤ first then .ok (first - second) else .error .overflow

/-- A word that starts with some bytes, which are copied without a check. -/
def wordFrom (content : Bytes) : Run Word :=
  if content.length ≤ 32 then .ok (wordOfBytes (content ++ Bytes.zeros (32 - content.length)))
  else .error .outOfBounds

/-- The fields behind the header, without a check. -/
def bodyFields (operation : OperationType) : Run (List Field) :=
  if operation.headerLength ≤ operation.fields.length then .ok operation.body
  else .error .outOfBounds

/-- A coercion of a field's value, whose fault is a refusal. -/
def reported {α : Type} (field : String) (coercion : Except ValueFault α) : Run α :=
  coercion.mapError fun fault => .refused (.invalidValue field fault)

def invalid {α : Type} (field : String) (fault : ValueFault) : Run α :=
  reported field (.error fault)

def coerce (field : String) : AbiType → Json → Run AbiValue
  | .int bits, json => do
    let value ← reported field (Abi.coerceInt json)
    let half : Int := Nat.pow 2 (← difference bits 1)
    if -half ≤ value ∧ value < half then return .int (BitVec.ofInt 256 value)
    else invalid field (.exceedsInt bits)
  | .fixedBytes size, json => do
    let content ← reported field (Abi.coerceBytes json)
    if content.length = size then return .fixedBytes (← wordFrom content)
    else invalid field (.wrongSize size content.length)
  | .array item, json =>
    match json with
    | .array items => .array <$> Abi.coerceItems (coerce field item) items
    | _ => invalid field .notArray
  | .fixedArray item length, json =>
    match json with
    | .array items =>
      if items.length = length then .fixedArray <$> Abi.coerceItems (coerce field item) items
      else invalid field (.wrongLength length items.length)
    | _ => invalid field .notArray
  | type, json => reported field (Abi.coerce type json)

def resolve (payload : List (String × Json)) : List Field → Run (List AbiValue)
  | [] => .ok []
  | field :: rest =>
    match Json.lookup? payload field.name with
    | none => .error (.refused (.missingField field.name))
    | some json => do
      let value ← coerce field.name field.type json
      let values ← resolve payload rest
      return value :: values

def bodyValues (request : Request) (operation : OperationType) : Run (List AbiValue) := do
  let fields ← bodyFields operation
  match Request.firstExtra? fields request.payload with
  | some name => .error (.refused (.unexpectedField name))
  | none => resolve request.payload fields

def encodeRequest (request : Request) (operation : OperationType) : Run EncodedRequest :=
  if operation.key = request.operationKey then do
    let body ← bodyValues request operation
    return operation.encoded request.sender request.sequence body
  else
    invalid "operationKey" (.otherOperation request.operationKey operation.key)

end GaslessRelay.Machine
