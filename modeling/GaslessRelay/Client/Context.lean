import GaslessRelay.Client.Config
import GaslessRelay.Client.Error
import GaslessRelay.Operation.Catalog
import GaslessRelay.TypedData

/-!
What every client operation of one network shares.
-/

namespace GaslessRelay

structure RelayContext where
  config : Config
  domain : Domain
  catalog : Catalog

def Config.domain (config : Config) (chainId : UInt64) : Domain where
  name := config.domainName
  version := config.domainVersion
  chainId
  verifyingContract := config.relayAddress

def RelayContext.ofConfig (config : Config) (chainId : UInt64) :
    Except RelayError RelayContext :=
  match Catalog.builtin config.modules with
  | .ok catalog => .ok { config, domain := config.domain chainId, catalog }
  | .error error => .error (.codec error)

end GaslessRelay
