import GaslessRelay.Abi.Layout
import GaslessRelay.Abi.Reader

/-!
Batches of calls as one blob. Each element is its mode, its target, a value of zero, the length of
its payload and the payload; nothing stands between two elements.
-/

namespace GaslessRelay

/-- How the custody account makes a call. -/
inductive BatchMode where
  | direct
  | delegated
deriving DecidableEq

namespace BatchMode

def byte : BatchMode → UInt8
  | direct => 0
  | delegated => 1

def ofByte? (byte : UInt8) : Option BatchMode :=
  if byte = 0 then some direct else if byte = 1 then some delegated else none

theorem ofByte?_byte (mode : BatchMode) : ofByte? mode.byte = some mode := by cases mode <;> rfl

end BatchMode

structure BatchOperation where
  mode : BatchMode
  target : Address
  payload : Bytes
deriving DecidableEq

namespace Batch

def headerLength : Nat := 1 + 20 + 32 + 32

def encodedLength (operation : BatchOperation) : Nat := headerLength + operation.payload.length

def encodeOne (operation : BatchOperation) : Bytes :=
  operation.mode.byte :: addressBytes operation.target ++ Bytes.zeros 32
    ++ Abi.numberWord operation.payload.length ++ operation.payload

/-- The blob of a batch, which has at least one element. -/
def encode (operations : List BatchOperation) : Except CodecError Bytes :=
  if operations.isEmpty then .error .emptyBatch else .ok (operations.flatMap encodeOne)

/-- The first element of a blob and the bytes after it; the element stands at `offset`. -/
def decodeOne (offset : Nat) (blob : Bytes) : Except BatchFault (BatchOperation × Bytes) :=
  if blob.length < headerLength then .error (.truncatedHeader offset)
  else
    let modeByte := blob.headD 0
    match BatchMode.ofByte? modeByte with
    | none => .error (.unknownMode modeByte offset)
    | some mode =>
      if !Bytes.isZero ((blob.drop 21).take 32) then .error (.nonZeroValue offset)
      else
        let length := Bytes.toNat ((blob.drop 53).take 32)
        let tail := blob.drop headerLength
        if length ≤ tail.length then
          .ok (⟨mode, addressOfBytes ((blob.drop 1).take 20), tail.take length⟩, tail.drop length)
        else .error (.payloadPastEnd length tail.length offset)

/-- The elements of a blob of at most `limit` bytes that stands at `offset`. -/
def decodeFrom : (limit offset : Nat) → Bytes → Except BatchFault (List BatchOperation)
  | _, _, [] => .ok []
  | 0, offset, _ :: _ => .error (.truncatedHeader offset)
  | limit + 1, offset, blob => do
    let (operation, rest) ← decodeOne offset blob
    let operations ← decodeFrom limit (offset + encodedLength operation) rest
    return operation :: operations

def decode (blob : Bytes) : Except CodecError (List BatchOperation) :=
  if blob.isEmpty then .error .emptyBatch
  else
    match decodeFrom blob.length 0 blob with
    | .ok operations => .ok operations
    | .error fault => .error (.corruptBatch fault)

def multiSendSignature : String := "multiSend(bytes)"

def multiSendCalldata (blob : Bytes) : Bytes := Abi.encodeCall multiSendSignature [.bytes blob]

end Batch

end GaslessRelay
