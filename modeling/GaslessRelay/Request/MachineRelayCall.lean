import GaslessRelay.Abi.MachineReader
import GaslessRelay.Request.RelayCall

/-!
Relay calls as a machine of 64-bit numbers reads them.
-/

namespace GaslessRelay.Machine

def placeFrom (base relative : Nat) : Run Nat :=
  match checkedSum? base relative with
  | some place => .ok place
  | none => refuse (.relativeOverflow relative base)

/-- The field with an index in the head of the tuple that starts at `base`. -/
def headField (arguments : Bytes) (base : Nat) (type : AbiType) (index : Nat) : Run AbiValue := do
  decodeAt arguments type (← placeFrom base (← product index 32))

def readRequest (arguments : Bytes) : Run WireRequest := do
  let base ← offsetAt arguments 0
  let typeHash ← headField arguments base (.fixedBytes 32) 0
  let sender ← headField arguments base .address 1
  let nonce ← headField arguments base (.uint 256) 2
  let dataOffset ← offsetAt arguments (← placeFrom base 96)
  match ← decodeAt arguments .bytes (← placeFrom base dataOffset) with
  | .bytes data =>
    match typeHash, sender, nonce with
    | .fixedBytes typeHash, .address sender, .uint nonce =>
      return { typeHash, sender, nonce, data }
    | _, _, _ => refuse .malformedRequest
  | _ => refuse .malformedRequestData

def readSignatures (arguments : Bytes) (thresholdPath : Bool) : Run (List Bytes) := do
  let type : AbiType := if thresholdPath then .array .bytes else .bytes
  match ← decodeAt arguments type (← offsetAt arguments 32) with
  | .bytes content => return [content]
  | .array items => return RelayCall.byteStrings items
  | _ => refuse .malformedSignatures

def relayCall (calldata : Bytes) : Run RelayCall := do
  if calldata.length < 4 then refuse .shortCalldata
  else
    let selector ← upTo calldata 4
    let arguments ← onward calldata 4
    match RelayCall.pathOf? selector with
    | none => refuse .notRelayCall
    | some thresholdPath =>
      let request ← readRequest arguments
      let signatures ← readSignatures arguments thresholdPath
      return { request, signatures, thresholdPath }

end GaslessRelay.Machine
