import GaslessRelay.Dispatch.SelectorSet

/-!
Upgrades of a module in the dispatch table: what only the new version answers is added, what both
answer is replaced, and what only the old one answered is removed.
-/

namespace GaslessRelay

inductive DispatchAction where
  | add
  | replace
  | remove
deriving DecidableEq

def DispatchAction.number : DispatchAction → Nat
  | add => 0
  | replace => 1
  | remove => 2

/-- An edit of the dispatch table; removals have the zero address as target. -/
structure DispatchEdit where
  target : Address
  action : DispatchAction
  selectors : SelectorSet

def DispatchEdit.toAbi (edit : DispatchEdit) : AbiValue :=
  .tuple [.address edit.target, .ofNat edit.action.number,
    .array (edit.selectors.toList.map AbiValue.ofSelector)]

structure UpgradePlan where
  added : SelectorSet
  replaced : SelectorSet
  removed : SelectorSet

namespace UpgradePlan

/-- The plan between the selectors of two versions; introspection is never routed. -/
def between (old new : SelectorSet) : UpgradePlan :=
  let routed (selector : Selector) : Bool := selector != Dispatch.introspectionSelector
  { added := new.filter fun selector => !old.contains selector && routed selector
    replaced := new.filter fun selector => old.contains selector && routed selector
    removed := old.filter fun selector => !new.contains selector && routed selector }

def isEmpty (plan : UpgradePlan) : Bool :=
  plan.added.isEmpty && plan.replaced.isEmpty && plan.removed.isEmpty

/-- The edits of a plan that have selectors: additions, replacements, removals. -/
def edits (plan : UpgradePlan) (target : Address) : List DispatchEdit :=
  let all : List DispatchEdit :=
    [⟨target, .add, plan.added⟩, ⟨target, .replace, plan.replaced⟩, ⟨0, .remove, plan.removed⟩]
  all.filter fun edit => !edit.selectors.isEmpty

/-- The edits that move a module from an old interface, if there was one, to a new one. -/
def ofInterfaces (old : Option Json) (new : Json) (target : Address) :
    Except CodecError (List DispatchEdit) := do
  let oldSelectors ← match old with
    | some artifact => Dispatch.moduleSelectors artifact
    | none => .ok .empty
  let newSelectors ← Dispatch.moduleSelectors new
  return (between oldSelectors newSelectors).edits target

end UpgradePlan

namespace Dispatch

def applyEditsSignature : String := "applyDispatchEdits((address,uint8,bytes4[])[],address,bytes)"

def applyEditsCalldata (edits : List DispatchEdit) (initTarget : Address) (initData : Bytes) :
    Bytes :=
  Abi.encodeCall applyEditsSignature
    [.array (edits.map DispatchEdit.toAbi), .address initTarget, .bytes initData]

end Dispatch

end GaslessRelay
