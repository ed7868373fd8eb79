import GaslessRelay.Client.Error
import GaslessRelay.Settings.Coercion
import GaslessRelay.Settings.Environment
import GaslessRelay.Toml.Parser

/-!
The configuration from a settings file and the environment. The environment wins over the file, and
a setting that neither has keeps its default.
-/

namespace GaslessRelay.Config

open Setting (withDefault uint64 uint32 address string lookup?)

/-- The configuration that settings describe; settings of other names mean nothing. -/
def ofSettings (members : List (String × Setting)) : Except SettingRefusal Config := do
  let default : Config := {}
  let optional {α : Type} (read : Setting → Except SettingRefusal α) (setting : Setting) :=
    (read setting).map some
  return {
    rpcUrl := ← withDefault default.rpcUrl string (lookup? members "rpc_url")
    fallbackRpcUrl :=
      ← withDefault default.fallbackRpcUrl string (lookup? members "fallback_rpc_url")
    network := ← withDefault default.network Setting.network (lookup? members "network")
    confirmations := ← withDefault none (optional uint64) (lookup? members "confirmations")
    pollIntervalMs :=
      ← withDefault default.pollIntervalMs uint64 (lookup? members "poll_interval_ms")
    chainId := ← withDefault none (optional uint64) (lookup? members "chain_id")
    domainName := ← withDefault default.domainName string (lookup? members "domain_name")
    domainVersion := ← withDefault default.domainVersion string (lookup? members "domain_version")
    relayAddress := ← withDefault 0 address (lookup? members "relay_address")
    custodyAddress := ← withDefault 0 address (lookup? members "custody_address")
    multiSendAddress := ← withDefault 0 address (lookup? members "multi_send_address")
    modules := ← withDefault {} Setting.modules (lookup? members "modules")
    readRetries := ← withDefault default.readRetries uint32 (lookup? members "read_retries")
    retryBaseMs := ← withDefault default.retryBaseMs uint64 (lookup? members "retry_base_ms")
    keysPath := ← withDefault default.keysPath string (lookup? members "keys_path")
    keysEncryptionKey :=
      ← withDefault none (optional string) (lookup? members "keys_encryption_key") }

/-- The members of the settings file, if there is one. A byte order mark of the file is no part of
the document, which may begin with one of its own. -/
def fileSettings (file : Option String) : Except SettingRefusal (List (String × Setting)) :=
  match file with
  | none => .ok []
  | some text =>
    match Toml.parse (String.ofList (Toml.skipByteOrderMark text.toList)) with
    | .ok members => .ok members
    | .error line => .error ⟨line⟩

/-- The configuration of an environment and a settings file. A refusal that says `not found` means
that nothing is configured, and then the defaults hold. -/
def load (environment : List (String × String)) (file : Option String) :
    Except ConfigFault Config :=
  let loaded := do
    ofSettings (Setting.layer (Setting.layer [] (← fileSettings file))
      (Environment.settings environment))
  match loaded with
  | .ok config => .ok config
  | .error refusal =>
    if Text.occursIn "not found".toList refusal.quoted.toList then .ok {} else .error .settings

end GaslessRelay.Config
