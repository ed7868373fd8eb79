import GaslessRelay.Client.Custody
import GaslessRelay.Dispatch.Upgrade

/-!
Upgrades of modules in the dispatch table, through the custody account.
-/

namespace GaslessRelay.ModuleUpgrade

/-- The edits between two interfaces, an absent one for a fresh module. -/
def plan (old : Option Json) (new : Json) (target : Address) :
    Except RelayError (List DispatchEdit) :=
  (UpgradePlan.ofInterfaces old new target).mapError .codec

def apply (custody : Custody) (dispatcher : Address) (edits : List DispatchEdit)
    (initTarget : Address) (initData : Bytes) : ClientM Receipt :=
  custody.executeCall dispatcher (Dispatch.applyEditsCalldata edits initTarget initData)

/-- Plans and applies an upgrade; nothing is sent without an edit or an initialisation. -/
def upgrade (custody : Custody) (dispatcher : Address) (old : Option Json) (new : Json)
    (target : Address) (init : Option (Address × Bytes)) : ClientM (Option Receipt) := do
  let edits ← ClientM.known (plan old new target)
  match edits, init with
  | [], none => return none
  | edits, init =>
    let (initTarget, initData) := init.getD (0, [])
    return some (← apply custody dispatcher edits initTarget initData)

end GaslessRelay.ModuleUpgrade
