import GaslessRelay.Text.Hex
import GaslessRelay.Text.Integer

/-!
Why values, calldata, batches, artifacts or signatures are refused. Each error is a cause; its
wording is in one function.
-/

namespace GaslessRelay

/-- Why a payload value does not have the type of its field. -/
inductive ValueFault where
  | notAddressText
  | notBoolean
  | notUnsigned
  | notSigned
  | notHexText
  | notText
  | notArray
  | badAddress (fault : Text.Hex.Fault)
  | badHex (fault : Text.Hex.Fault)
  | badUnsigned (fault : Text.Integer.Fault)
  | badSigned (fault : Text.Integer.Fault)
  | exceedsUint (bits : Nat)
  | exceedsInt (bits : Nat)
  | wrongSize (expected actual : Nat)
  | wrongLength (expected actual : Nat)
  | otherOperation (requested offered : String)
deriving DecidableEq, Repr

namespace ValueFault

def badDigitMessage (byte : UInt8) : String :=
  "invalid digit: " ++ String.singleton (Text.latin1 byte)

def message : ValueFault → String
  | notAddressText => "expected hex address string"
  | notBoolean => "expected boolean"
  | notUnsigned => "expected unsigned integer"
  | notSigned => "expected signed integer"
  | notHexText => "expected 0x-prefixed hex string"
  | notText => "expected string"
  | notArray => "expected array"
  | badAddress fault => fault.message
  | badHex fault => fault.sentence
  | badUnsigned (.badDigit byte) => badDigitMessage byte
  | badUnsigned .tooLarge => "the value is too large to fit the target type"
  | badSigned (.badDigit byte) => badDigitMessage byte
  | badSigned .tooLarge => "number does not fit in the integer size"
  | exceedsUint bits => "does not fit in uint" ++ toString bits
  | exceedsInt bits => "does not fit in int" ++ toString bits
  | wrongSize expected actual =>
    "expected " ++ toString expected ++ " bytes, got " ++ toString actual
  | wrongLength expected actual =>
    "expected " ++ toString expected ++ " elements, got " ++ toString actual
  | otherOperation requested offered =>
    "request is for '" ++ requested ++ "', not '" ++ offered ++ "'"

end ValueFault

/-- Why bytes are no ABI encoding of what is asked, or a JSON value is no contract interface. -/
inductive AbiFault where
  | pastEnd (offset : Nat)
  | lengthOverflow
  | offsetOverflow
  | dirtyAddress
  | boolRange
  | uintRange (bits : Nat)
  | dirtyBytes (size : Nat)
  | notUtf8
  | arrayTooLong (length : Nat)
  | bytesPastEnd (length : Nat)
  | typeHashMismatch
  | nonceRange
  | shortCalldata
  | notRelayCall
  | relativeOverflow (relative base : Nat)
  | malformedRequest
  | malformedRequestData
  | malformedSignatures
  | malformedEdit
  | sequenceRange (value : Nat)
  | thresholdRange (value : Nat)
  | noInterface
  | notInterface
  | namelessFunction
  | badInputs (name : String)
  | typelessParameter
  | tupleWithoutComponents
deriving DecidableEq, Repr

def AbiFault.message : AbiFault → String
  | pastEnd offset => "read past end at offset " ++ toString offset
  | lengthOverflow => "offset or length overflows"
  | offsetOverflow => "offset overflows"
  | dirtyAddress => "dirty address padding"
  | boolRange => "bool out of range"
  | uintRange bits => "value exceeds uint" ++ toString bits
  | dirtyBytes size => "dirty bytes" ++ toString size ++ " padding"
  | notUtf8 => "string is not utf-8"
  | arrayTooLong length => "array length " ++ toString length ++ " too large"
  | bytesPastEnd length => "bytes of length " ++ toString length ++ " run past end"
  | typeHashMismatch => "type hash does not match entry"
  | nonceRange => "nonce exceeds u64"
  | shortCalldata => "calldata shorter than a selector"
  | notRelayCall => "not a relay execution call"
  | relativeOverflow relative base =>
    "offset " ++ toString relative ++ " past " ++ toString base ++ " overflows"
  | malformedRequest => "malformed request tuple"
  | malformedRequestData => "malformed request data"
  | malformedSignatures => "malformed signature argument"
  | malformedEdit => "malformed dispatch edit"
  | sequenceRange value => "sequence number " ++ toString value ++ " exceeds u64"
  | thresholdRange value => "threshold " ++ toString value ++ " exceeds u64"
  | noInterface => "artifact has no 'abi' array"
  | notInterface => "expected ABI array or artifact"
  | namelessFunction => "function entry without name"
  | badInputs name => name ++ ": bad inputs"
  | typelessParameter => "parameter without type"
  | tupleWithoutComponents => "tuple parameter without components"

/-- Why a blob is no batch; offsets count bytes from the start of the blob. -/
inductive BatchFault where
  | truncatedHeader (offset : Nat)
  | unknownMode (mode : UInt8) (offset : Nat)
  | nonZeroValue (offset : Nat)
  | payloadPastEnd (length remaining offset : Nat)
  | reported (text : String)
deriving DecidableEq, Repr

def BatchFault.message : BatchFault → String
  | truncatedHeader offset => "truncated element header at offset " ++ toString offset
  | unknownMode mode offset =>
    "unknown mode " ++ toString mode.toNat ++ " at offset " ++ toString offset
  | nonZeroValue offset => "non-zero value field at offset " ++ toString offset
  | payloadPastEnd length remaining offset =>
    "payload length " ++ toString length ++ " exceeds remaining " ++ toString remaining
      ++ " bytes at offset " ++ toString offset
  | reported text => text

inductive SignatureFault where
  | wrongLength (actual : Nat)
  | recoveryByte (byte : UInt8)
  | badKey
deriving DecidableEq, Repr

def SignatureFault.message : SignatureFault → String
  | wrongLength actual => "expected 65 bytes, got " ++ toString actual
  | recoveryByte byte => "invalid recovery byte " ++ toString byte.toNat
  | badKey => "invalid uncompressed public key bytes"

inductive CodecError where
  | invalidType (text : String)
  | invalidValue (field : String) (fault : ValueFault)
  | missingField (name : String)
  | unexpectedField (name : String)
  | duplicateField (name : String)
  | duplicateKey (key : String)
  | emptyBatch
  | corruptBatch (fault : BatchFault)
  | invalidAbi (fault : AbiFault)
  | invalidSignature (fault : SignatureFault)
deriving DecidableEq, Repr

def CodecError.message : CodecError → String
  | invalidType text => "invalid primitive type: " ++ text
  | invalidValue field fault => "invalid value for field '" ++ field ++ "': " ++ fault.message
  | missingField name => "missing payload field: " ++ name
  | unexpectedField name => "unexpected payload field: " ++ name
  | duplicateField name => "duplicate or reserved field name: " ++ name
  | duplicateKey key => "operation key registered twice: " ++ key
  | emptyBatch => "batch must contain at least one operation"
  | corruptBatch fault => "corrupt batch blob: " ++ fault.message
  | invalidAbi fault => "invalid abi: " ++ fault.message
  | invalidSignature fault => "invalid signature bytes: " ++ fault.message

end GaslessRelay
