import GaslessRelay.Batch
import GaslessRelay.Chain.State
import GaslessRelay.Dispatch.Upgrade
import GaslessRelay.Request.Basic
import GaslessRelay.Schema.Values

/-!
The JSON forms of what the client works out and of what the chain in memory remembers.
-/

namespace GaslessRelay

def Json.ofBits {width : Nat} (value : BitVec width) : Json :=
  .ofBytes (Bytes.ofNat (width / 8) value.toNat)

def Json.ofOption {α : Type} (encode : α → Json) : Option α → Json
  | some value => encode value
  | none => .null

def Field.toJson (field : Field) : Json := .array [.string field.name, .string field.type.name]

def OperationType.toJson (operation : OperationType) : Json :=
  .object [("key", .string operation.key), ("fields", .array (operation.fields.map Field.toJson)),
    ("body", .array (operation.body.map fun field => .string field.name)),
    ("header_len", .ofNat operation.headerLength), ("opaque", .bool operation.hasOpaqueData),
    ("proxied", .bool operation.isProxied), ("type_string", .string operation.typeString),
    ("type_hash", .ofBits operation.typeHash), ("target", .ofBits operation.target),
    ("selector", .ofBits operation.selector)]

def EncodedRequest.toJson (encoded : EncodedRequest) : Json :=
  .object [("type_hash", .ofBits encoded.typeHash), ("sender", .ofBits encoded.sender),
    ("nonce", .ofUInt64 encoded.nonce), ("data", .ofBytes encoded.data),
    ("struct_hash", .ofBits encoded.structHash)]

def Receipt.toJson (receipt : Receipt) : Json :=
  .object [("tx_hash", .ofBits receipt.transaction), ("block_number", .ofUInt64 receipt.block),
    ("success", .bool receipt.success), ("revert_reason", .ofOption .string receipt.revertReason)]

def NetworkKind.toJson : NetworkKind → Json
  | .localChain => .string "Local"
  | .publicChain => .string "Public"

/-- The settings and what follows from them; a secret key stands in it as it is. -/
def Config.toJson (config : Config) : Json :=
  .object [("rpc_url", .string config.rpcUrl), ("fallback_rpc_url", .string config.fallbackRpcUrl),
    ("network", config.network.toJson), ("confirmations", .ofOption .ofUInt64 config.confirmations),
    ("poll_interval_ms", .ofUInt64 config.pollIntervalMs),
    ("chain_id", .ofOption .ofUInt64 config.chainId), ("domain_name", .string config.domainName),
    ("domain_version", .string config.domainVersion),
    ("relay_address", .ofBits config.relayAddress),
    ("custody_address", .ofBits config.custodyAddress),
    ("multi_send_address", .ofBits config.multiSendAddress),
    ("modules", .array ([config.modules.registry, config.modules.token, config.modules.wallet].map
      Json.ofBits)),
    ("read_retries", .ofNat config.readRetries.toNat),
    ("retry_base_ms", .ofUInt64 config.retryBaseMs), ("keys_path", .string config.keysPath),
    ("keys_encryption_key", .ofOption .string config.keysEncryptionKey),
    ("effective_confirmations", .ofUInt64 config.effectiveConfirmations),
    ("poll_micros", .string (toString config.pollMicros))]

namespace LedgerRequest

/-- How many bytes of data a report shows in full. -/
def shownLength : Nat := 512

/-- Data in full, or its length and digest. -/
def dataReport (data : Bytes) : Json :=
  if data.length ≤ shownLength then .ofBytes data
  else .object [("len", .ofNat data.length), ("keccak", .ofBits (Digest.keccak256 data))]

def toJson : LedgerRequest → Json
  | .call target data => .array [.string "call", .ofBits target, dataReport data]
  | .send target data => .array [.string "send", .ofBits target, dataReport data]
  | .receipt transaction => .array [.string "receipt", .ofBits transaction]
  | .blockNumber => .array [.string "block"]
  | .chainId => .array [.string "chain_id"]

end LedgerRequest

/-- The metrics that an object describes; a value that it does not name is zero. -/
def Metrics.ofJson? (json : Json) : Option Metrics := do
  let value (name : String) := Json.withDefault? 0 Json.uint64? (json.member? name)
  return {
    relaysSubmitted := ← value "relays_submitted"
    relaysConfirmed := ← value "relays_confirmed"
    relaysReverted := ← value "relays_reverted"
    sequenceMismatches := ← value "sequence_mismatches"
    custodyCalls := ← value "custody_calls"
    custodyBatches := ← value "custody_batches"
    waitMicrosSum := ← value "confirm_wait_us_sum"
    waitMicrosMax := ← value "confirm_wait_us_max"
    rpcFailovers := ← value "rpc_failovers"
    rpcErrors := ← value "rpc_errors"
    rpcRetries := ← value "rpc_retries" }

namespace BatchOperation

def toJson (operation : BatchOperation) : Json :=
  .object [("mode", .ofNat operation.mode.byte.toNat), ("target", .ofBits operation.target),
    ("payload", .ofBytes operation.payload)]

def ofJson? (json : Json) : Option BatchOperation := do
  match ← Json.record? ["mode", "target", "payload"] json with
  | [mode, target, payload] =>
    return {
      mode := ← BatchMode.ofByte? (← Json.required? Json.byte? mode)
      target := ← Json.required? Json.address? target
      payload := ← Json.required? Json.bytes? payload }
  | _ => none

end BatchOperation

def DispatchAction.toJson : DispatchAction → Json
  | .add => .string "Add"
  | .replace => .string "Replace"
  | .remove => .string "Remove"

def SelectorSet.toJson (set : SelectorSet) : Json := .array (set.toList.map Json.ofBits)

def DispatchEdit.toJson (edit : DispatchEdit) : Json :=
  .object [("action", edit.action.toJson), ("target", .ofBits edit.target),
    ("selectors", edit.selectors.toJson)]

namespace Chain.State

/-- A registration by its key and the start of its hash. -/
def registration (entry : Hash × String) : String :=
  String.ofList (entry.2.toList.takeWhile (· ≠ '(')) ++ ":"
    ++ String.ofList ((Word.text entry.1).toList.take 10)

def toJson (state : State) : Json :=
  let registrations := state.registered.entries.map registration
  .object [("block", .ofUInt64 state.block), ("transactions", .ofNat state.transactions),
    ("nonces", .object (state.nonces.entries.map fun (sender, nonce) =>
      (Address.text sender, .ofUInt64 nonce))),
    ("registered", .array ((registrations.mergeSort fun first second => first ≤ second).map
      Json.string)),
    ("dispatch", .array (state.dispatch.entries.map fun (selector, target) =>
      .array [.ofBits selector, .ofBits target])),
    ("executed", .array (state.executed.map fun (key, sender) =>
      .array [.string key, .ofBits sender]))]

end Chain.State

end GaslessRelay
