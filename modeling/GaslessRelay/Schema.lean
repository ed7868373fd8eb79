import GaslessRelay.Account.Policy
import GaslessRelay.Client.Config
import GaslessRelay.Json.Record

/-!
The JSON forms of requests, policies, signatures, domains, modules and configurations.
-/

namespace GaslessRelay

open Json (record? required? withDefault? nullable? uint64? uint32? address? items? bytes?)

namespace Request

def ofJson? (json : Json) : Option Request := do
  match ← record? ["operationKey", "sender", "sequenceNumber", "payload"] json with
  | [key, sender, sequence, payload] =>
    return {
      operationKey := ← required? Json.string? key
      sender := ← required? address? sender
      sequence := ← required? uint64? sequence
      payload := (← required? Json.object? payload).foldl
        (fun members member => Json.insert members member.1 member.2) [] }
  | _ => none

def toJson (request : Request) : Json :=
  .object [("operationKey", .string request.operationKey), ("sender", .ofAddress request.sender),
    ("sequenceNumber", .ofUInt64 request.sequence), ("payload", .object request.payload)]

end Request

namespace AccountPolicy

/-- The policy that a JSON value describes: its type, and for a threshold its fields. -/
def ofJson? (json : Json) : Option AccountPolicy := do
  match json with
  | .object members =>
    match Json.named members "type" with
    | [.string "single_key"] => return .singleKey
    | [.string "threshold"] => threshold? json
    | _ => none
  | .array [.string "single_key"] => return .singleKey
  | .array (.string "threshold" :: fields) => threshold? (.array fields)
  | _ => none
where
  threshold? (json : Json) : Option AccountPolicy := do
    match ← record? ["owners", "threshold"] json with
    | [owners, count] =>
      return .threshold (← required? (items? address?) owners) (← required? uint64? count)
    | _ => none

def toJson : AccountPolicy → Json
  | .singleKey => .object [("type", .string "single_key")]
  | .threshold owners count =>
    .object [("type", .string "threshold"), ("owners", .array (owners.map Json.ofAddress)),
      ("threshold", .ofUInt64 count)]

end AccountPolicy

namespace SignatureEntry

def ofJson? (json : Json) : Option SignatureEntry := do
  match ← record? ["signer", "signature"] json with
  | [signer, signature] =>
    return { signer := ← required? address? signer, signature := ← required? bytes? signature }
  | _ => none

def toJson (entry : SignatureEntry) : Json :=
  .object [("signer", .ofAddress entry.signer), ("signature", .ofBytes entry.signature)]

end SignatureEntry

namespace SignatureSet

/-- The set that a JSON value describes, in its own order. -/
def ofJson? (json : Json) : Option SignatureSet := do
  match ← record? ["entries"] json with
  | [entries] => return ⟨← required? (items? SignatureEntry.ofJson?) entries⟩
  | _ => none

def toJson (set : SignatureSet) : Json :=
  .object [("entries", .array (set.entries.map SignatureEntry.toJson))]

end SignatureSet

namespace ModuleAddresses

def ofJson? (json : Json) : Option ModuleAddresses := do
  match ← record? ["registry", "token", "wallet"] json with
  | [registry, token, wallet] =>
    return {
      registry := ← withDefault? 0 address? registry
      token := ← withDefault? 0 address? token
      wallet := ← withDefault? 0 address? wallet }
  | _ => none

def toJson (modules : ModuleAddresses) : Json :=
  .object [("registry", .ofAddress modules.registry), ("token", .ofAddress modules.token),
    ("wallet", .ofAddress modules.wallet)]

end ModuleAddresses

namespace Domain

def ofJson? (json : Json) : Option Domain := do
  match ← record? ["name", "version", "chain_id", "verifying_contract"] json with
  | [name, version, chainId, verifyingContract] =>
    return {
      name := ← required? Json.string? name
      version := ← required? Json.string? version
      chainId := ← required? uint64? chainId
      verifyingContract := ← required? address? verifyingContract }
  | _ => none

def toJson (domain : Domain) : Json :=
  .object [("name", .string domain.name), ("version", .string domain.version),
    ("chain_id", .ofUInt64 domain.chainId),
    ("verifying_contract", .ofAddress domain.verifyingContract)]

end Domain

namespace NetworkKind

/-- A network by its name, or by an object whose only member has that name and is null. -/
def ofJson? (json : Json) : Option NetworkKind :=
  match json with
  | .string name => ofName? name
  | .object [(name, .null)] => ofName? name
  | _ => none

end NetworkKind

namespace Config

def settingNames : List String :=
  ["rpc_url", "fallback_rpc_url", "network", "confirmations", "poll_interval_ms", "chain_id",
    "domain_name", "domain_version", "relay_address", "custody_address", "multi_send_address",
    "modules", "read_retries", "retry_base_ms", "keys_path", "keys_encryption_key"]

/-- The configuration that a JSON value describes; every setting has a default. -/
def ofJson? (json : Json) : Option Config := do
  let default : Config := {}
  match ← record? settingNames json with
  | [rpcUrl, fallbackRpcUrl, network, confirmations, pollIntervalMs, chainId, domainName,
      domainVersion, relayAddress, custodyAddress, multiSendAddress, modules, readRetries,
      retryBaseMs, keysPath, keysEncryptionKey] =>
    return {
      rpcUrl := ← withDefault? default.rpcUrl Json.string? rpcUrl
      fallbackRpcUrl := ← withDefault? default.fallbackRpcUrl Json.string? fallbackRpcUrl
      network := ← withDefault? default.network NetworkKind.ofJson? network
      confirmations := ← withDefault? none (nullable? uint64?) confirmations
      pollIntervalMs := ← withDefault? default.pollIntervalMs uint64? pollIntervalMs
      chainId := ← withDefault? none (nullable? uint64?) chainId
      domainName := ← withDefault? default.domainName Json.string? domainName
      domainVersion := ← withDefault? default.domainVersion Json.string? domainVersion
      relayAddress := ← withDefault? 0 address? relayAddress
      custodyAddress := ← withDefault? 0 address? custodyAddress
      multiSendAddress := ← withDefault? 0 address? multiSendAddress
      modules := ← withDefault? {} ModuleAddresses.ofJson? modules
      readRetries := ← withDefault? default.readRetries uint32? readRetries
      retryBaseMs := ← withDefault? default.retryBaseMs uint64? retryBaseMs
      keysPath := ← withDefault? default.keysPath Json.string? keysPath
      keysEncryptionKey := ← withDefault? none (nullable? Json.string?) keysEncryptionKey }
  | _ => none

end Config

end GaslessRelay
