import GaslessRelay.Abi.Reader
import GaslessRelay.Request.Basic

/-!
Relay calls as the verifier receives them, and the digest that it rebuilds from the bytes.
-/

namespace GaslessRelay

def requestTuple : String := "(bytes32,address,uint256,bytes)"

def executeSingleSignature : String := "executeEOA(" ++ requestTuple ++ ",bytes)"

def executeThresholdSignature : String := "executeLUW(" ++ requestTuple ++ ",bytes[])"

structure WireRequest where
  typeHash : Hash
  sender : Address
  nonce : Word
  data : Bytes
deriving DecidableEq

/-- The digest of a request's message, rebuilt from the data that it carries. -/
def WireRequest.structHash (request : WireRequest) (operation : OperationType) :
    Except CodecError Hash :=
  if operation.typeHash = request.typeHash then
    if request.nonce.toNat < UInt64.size then do
      let body ← Abi.decode (operation.body.map (·.type)) request.data
      return messageHash operation request.sender (UInt64.ofNat request.nonce.toNat) request.data
        body
    else .error (.invalidAbi .nonceRange)
  else .error (.invalidAbi .typeHashMismatch)

structure RelayCall where
  request : WireRequest
  signatures : List Bytes
  thresholdPath : Bool
deriving DecidableEq

namespace RelayCall

def placeFrom (base relative : Nat) : Except CodecError Nat :=
  if base + relative < Text.wordLimit then .ok (base + relative)
  else .error (.invalidAbi (.relativeOverflow relative base))

/-- The word of a uint256 or bytes32 field at a place relative to its tuple. -/
def wordFrom (arguments : Bytes) (base relative : Nat) : Except CodecError Word := do
  Abi.wordAt arguments (← placeFrom base relative)

def readRequest (arguments : Bytes) : Except CodecError WireRequest := do
  let base ← Abi.offsetAt arguments 0
  let typeHash ← wordFrom arguments base 0
  let sender ← Abi.addressAt arguments (← placeFrom base 32)
  let nonce ← wordFrom arguments base 64
  let dataOffset ← Abi.offsetAt arguments (← placeFrom base 96)
  let data ← Abi.bytesAt arguments (← placeFrom base dataOffset)
  return { typeHash, sender, nonce, data }

def byteStrings : List AbiValue → List Bytes
  | [] => []
  | .bytes content :: rest => content :: byteStrings rest
  | _ :: rest => byteStrings rest

/-- The signatures behind the second argument: one, or an array of them. -/
def readSignatures (arguments : Bytes) (thresholdPath : Bool) : Except CodecError (List Bytes) := do
  let offset ← Abi.offsetAt arguments 32
  if thresholdPath then
    match ← Abi.decodeAt arguments (.array .bytes) offset with
    | .array items => return byteStrings items
    | _ => .error (.invalidAbi .malformedSignatures)
  else return [← Abi.bytesAt arguments offset]

/-- Whether a selector takes the path of several owners, if it names a relay function. -/
def pathOf? (selector : Bytes) : Option Bool :=
  if selector = selectorBytes (Abi.functionSelector executeSingleSignature) then some false
  else if selector = selectorBytes (Abi.functionSelector executeThresholdSignature) then some true
  else none

def decode (calldata : Bytes) : Except CodecError RelayCall :=
  if calldata.length < 4 then .error (.invalidAbi .shortCalldata)
  else
    match pathOf? (calldata.take 4) with
    | none => .error (.invalidAbi .notRelayCall)
    | some thresholdPath => do
      let arguments := calldata.drop 4
      let request ← readRequest arguments
      let signatures ← readSignatures arguments thresholdPath
      return { request, signatures, thresholdPath }

end RelayCall

end GaslessRelay
