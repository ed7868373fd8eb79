import GaslessRelay.Operation.Builtin

/-!
The configuration of the relay client.
-/

namespace GaslessRelay

inductive NetworkKind where
  | localChain
  | publicChain
deriving DecidableEq

namespace NetworkKind

def ofName? (name : String) : Option NetworkKind :=
  if name = "local" then some localChain
  else if name = "public" then some publicChain
  else none

def defaultConfirmations : NetworkKind → UInt64
  | localChain => 0
  | publicChain => 1

end NetworkKind

structure Config where
  rpcUrl : String := "http://127.0.0.1:8545"
  fallbackRpcUrl : String := "http://127.0.0.1:8545"
  network : NetworkKind := .localChain
  confirmations : Option UInt64 := none
  pollIntervalMs : UInt64 := 1000
  /-- Asked of the node when absent. -/
  chainId : Option UInt64 := none
  domainName : String := "ProvenanceRelay"
  domainVersion : String := "1"
  relayAddress : Address := 0
  custodyAddress : Address := 0
  multiSendAddress : Address := 0
  modules : ModuleAddresses := {}
  readRetries : UInt32 := 3
  retryBaseMs : UInt64 := 200
  keysPath : String := "./account_keys/relayer.json"
  /-- A base64 key; without one the key store is plain. -/
  keysEncryptionKey : Option String := none
deriving DecidableEq

namespace Config

def effectiveConfirmations (config : Config) : UInt64 :=
  config.confirmations.getD config.network.defaultConfirmations

def pollMicros (config : Config) : Nat := config.pollIntervalMs.toNat * 1000

end Config

end GaslessRelay
