import GaslessRelay.Client.Ledger
import GaslessRelay.Json.Record

/-!
Ledgers whose replies are written down beforehand, in a queue for each kind of question.
-/

namespace GaslessRelay

structure Script where
  call : List (Except RelayError Bytes) := []
  send : List (Except RelayError Hash) := []
  /-- What becomes of a transaction, whichever is asked for. -/
  receipt : List (Except RelayError (Hash → Option Receipt)) := []
  block : List (Except RelayError UInt64) := []
  chainId : List (Except RelayError UInt64) := []

namespace Script

/-- The first reply of a queue and the others; an empty queue answers with a failure. -/
def next {α : Type} (name : String) : List (Except RelayError α) →
    Except RelayError α × List (Except RelayError α)
  | [] => (.error (.rpc ("script exhausted: " ++ name)), [])
  | reply :: rest => (reply, rest)

def answer (script : Script) : (request : LedgerRequest) → request.Reply × Script
  | .call .. =>
    let (reply, rest) := next "call" script.call
    (reply, { script with call := rest })
  | .send .. =>
    let (reply, rest) := next "send" script.send
    (reply, { script with send := rest })
  | .receipt transaction =>
    let (reply, rest) := next "receipt" script.receipt
    (reply.map (· transaction), { script with receipt := rest })
  | .blockNumber =>
    let (reply, rest) := next "block" script.block
    (reply, { script with block := rest })
  | .chainId =>
    let (reply, rest) := next "chain_id" script.chainId
    (reply, { script with chainId := rest })

def reply? {α : Type} (decode : Json → Option α) : Json → Option (Except RelayError α)
  | .object [("ok", value)] => (decode value).map .ok
  | .object [("revert", .string reason)] => some (.error (.ofRevert reason))
  | .object [("rpc", .string text)] => some (.error (.rpc text))
  | _ => none

def receipt? (json : Json) : Option (Hash → Option Receipt) := do
  if json.isNull then return fun _ => none
  let block ← json.member? "block" >>= Json.uint64?
  let success ← json.member? "success" >>= Json.bool?
  let revertReason := json.member? "reason" >>= Json.string?
  return fun transaction => some { transaction, block, success, revertReason }

/-- The script that an object describes; a queue that it does not name is empty. -/
def ofJson? (json : Json) : Option Script := do
  let queue {α : Type} (decode : Json → Option α) (name : String) :
      Option (List (Except RelayError α)) :=
    Json.withDefault? [] (Json.items? (reply? decode)) (json.member? name)
  return {
    call := ← queue Json.bytes? "call"
    send := ← queue (fun json => (Json.fixedBytes? 32 json).map wordOfBytes) "send"
    receipt := ← queue receipt? "receipt"
    block := ← queue Json.uint64? "block"
    chainId := ← queue Json.uint64? "chain_id" }

def ledger : Ledger Script where
  answer script request :=
    let (reply, rest) := script.answer request
    (some reply, rest)

end Script

end GaslessRelay
