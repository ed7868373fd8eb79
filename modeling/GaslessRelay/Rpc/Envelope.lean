import GaslessRelay.Abi.Reader
import GaslessRelay.Client.Ledger
import GaslessRelay.Json.Printer
import GaslessRelay.Json.Record

/-!
The JSON-RPC form of questions and answers: envelopes, quantities, byte strings and receipts.
-/

namespace GaslessRelay.Rpc

inductive Failure where
  /-- No usable answer came; another node may be asked. -/
  | transport (text : String)
  | node (code : Int) (message : String) (data : Option Bytes)
deriving DecidableEq

def revertCode : Int := 3

/-- The bytes of hexadecimal text after any number of prefixes `0x`. -/
def decodeHex (text : String) : Except Text.Hex.Fault Bytes :=
  Text.Hex.decode (Bytes.ofString (String.ofList (Text.dropStarts ['0', 'x'] text.toList)))

/-- The message of a revert without the phrase that nodes put before it. -/
def bareReason (message : String) : String :=
  match Text.dropStart? "execution reverted: ".toList message.toList with
  | some rest => String.ofList rest
  | none => message

def revertReason (message : String) (data : Option Bytes) : String :=
  (data.bind Abi.revertReason?).getD (bareReason message)

def Failure.toError (method : String) : Failure → RelayError
  | transport text => .rpc (method ++ ": " ++ text)
  | node code message data =>
    if code = revertCode ∨ Text.occursIn "revert".toList message.toList then
      .ofRevert (revertReason message data)
    else .rpc (method ++ ": node error " ++ toString code ++ ": " ++ message)

def Failure.report : Failure → String
  | transport text => "Transport(" ++ Text.quoteString text ++ ")"
  | node code message data =>
    let dataText := match data with
      | none => "None"
      | some bytes =>
        "Some([" ++ String.intercalate ", " (bytes.map fun byte => toString byte.toNat) ++ "])"
    "Node \x7b code: " ++ toString code ++ ", message: " ++ Text.quoteString message ++ ", data: "
      ++ dataText ++ " \x7d"

/-- The data of a node's error, given as text or as the member `data` of an object. -/
def errorData? (error : Json) : Option Bytes := do
  match ← error.member? "data" with
  | .string text => (decodeHex text).toOption
  | .object members => do
    match ← Json.lookup? members "data" with
    | .string text => (decodeHex text).toOption
    | _ => none
  | _ => none

/-- The code of a node's error; one that is no integer of 64 bits counts as zero. -/
def errorCode (error : Json) : Int :=
  match (error.member? "code").bind Json.integer? with
  | some code => if code ≤ Int64.maxValue.toInt then code else 0
  | none => 0

def openEnvelope (payload : Json) : Except Failure Json :=
  match payload.member? "error" with
  | some error =>
    let message := ((error.member? "message").bind Json.string?).getD ""
    .error (.node (errorCode error) message (errorData? error))
  | none =>
    match payload.member? "result" with
    | some result => .ok result
    | none => .error (.transport "response has neither result nor error")

def envelope (id : Nat) (method : String) (params : Json) : Json :=
  .object [("jsonrpc", .string "2.0"), ("id", .ofNat id), ("method", .string method),
    ("params", params)]

def readQuantity (value : Json) : Except RelayError UInt64 :=
  match value with
  | .string text =>
    match Text.Numeral.read 16 Text.wordLimit (Text.dropStarts ['0', 'x'] text.toList) with
    | .ok number => .ok (UInt64.ofNat number)
    | .error fault => .error (.rpc ("bad hex quantity " ++ text ++ ": " ++ fault.message))
  | value => .error (.rpc ("expected hex quantity, got " ++ value.compact))

def readBytes (value : Json) : Except RelayError Bytes :=
  match value with
  | .string text =>
    match decodeHex text with
    | .ok bytes => .ok bytes
    | .error fault => .error (.rpc ("bad hex data: " ++ fault.sentence))
  | value => .error (.rpc ("expected hex data, got " ++ value.compact))

def hashText? (value : Json) : Option Hash := do
  wordOfBytes (← (Text.Hex.decodeFixed 32 (Bytes.ofString (← value.string?))).toOption)

def addressText? (value : Json) : Option Address := do
  addressOfBytes (← (Text.Hex.decodeFixed 20 (Bytes.ofString (← value.string?))).toOption)

def receiptMember (value : Json) (name : String) : Except RelayError Json :=
  match value.member? name with
  | some member => .ok member
  | none => .error (.rpc ("receipt missing " ++ name))

def readReceipt (value : Json) : Except RelayError Receipt := do
  let hash ← receiptMember value "transactionHash"
  match hashText? hash with
  | none => .error (.rpc "receipt has bad transactionHash")
  | some transaction =>
    let block ← readQuantity (← receiptMember value "blockNumber")
    let status ← readQuantity (← receiptMember value "status")
    return {
      transaction
      block
      success := status = 1
      revertReason := (value.member? "revertReason").bind Json.string? }

def readReceipt? (value : Json) : Except RelayError (Option Receipt) :=
  if value.isNull then .ok none else some <$> readReceipt value

end GaslessRelay.Rpc
