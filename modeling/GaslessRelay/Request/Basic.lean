import GaslessRelay.Abi.Coercion
import GaslessRelay.Operation.Basic
import GaslessRelay.TypedData

/-!
Relay requests: the payload that a caller hands over, resolved against the body of an operation
type, and the encoded form whose digest is signed.
-/

namespace GaslessRelay

structure Request where
  operationKey : String
  sender : Address
  sequence : UInt64
  payload : List (String × Json)

structure EncodedRequest where
  typeHash : Hash
  sender : Address
  nonce : UInt64
  /-- The encoding of every body field in order. -/
  data : Bytes
  structHash : Hash
deriving DecidableEq

/-- The digest of a message: the header with the data field where there is one, and the body. -/
def messageHash (operation : OperationType) (sender : Address) (nonce : UInt64) (data : Bytes)
    (body : List AbiValue) : Hash :=
  let header := [.address sender, .ofNat nonce.toNat]
  let opaqueData := if operation.hasOpaqueData then [.bytes data] else []
  TypedData.structHash operation.typeHash (header ++ opaqueData ++ body)

/-- What is signed for an operation and sent on: the digest of its message and the parts of it. -/
def OperationType.encoded (operation : OperationType) (sender : Address) (sequence : UInt64)
    (body : List AbiValue) : EncodedRequest where
  typeHash := operation.typeHash
  sender
  nonce := sequence
  data := Abi.encode body
  structHash := messageHash operation sender sequence (Abi.encode body) body

namespace Request

def firstExtra? (fields : List Field) (payload : List (String × Json)) : Option String :=
  (payload.map Prod.fst).find? fun name => !fields.any (·.name = name)

def resolve (payload : List (String × Json)) : List Field → Except CodecError (List AbiValue)
  | [] => .ok []
  | field :: rest =>
    match Json.lookup? payload field.name with
    | none => .error (.missingField field.name)
    | some json => do
      let value ← Abi.fromPayload field.name field.type json
      let values ← resolve payload rest
      return value :: values

def bodyValues (request : Request) (operation : OperationType) :
    Except CodecError (List AbiValue) :=
  match firstExtra? operation.body request.payload with
  | some name => .error (.unexpectedField name)
  | none => resolve request.payload operation.body

def encode (request : Request) (operation : OperationType) :
    Except CodecError EncodedRequest :=
  if operation.key = request.operationKey then do
    let body ← request.bodyValues operation
    return operation.encoded request.sender request.sequence body
  else
    .error (.invalidValue "operationKey" (.otherOperation request.operationKey operation.key))

end Request

namespace EncodedRequest

def digest (encoded : EncodedRequest) (domain : Domain) : Hash :=
  TypedData.signingDigest domain.separator encoded.structHash

def toAbi (encoded : EncodedRequest) : AbiValue :=
  .tuple [.fixedBytes encoded.typeHash, .address encoded.sender, .ofNat encoded.nonce.toNat,
    .bytes encoded.data]

end EncodedRequest

end GaslessRelay
