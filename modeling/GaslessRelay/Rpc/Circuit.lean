/-!
The breaker that keeps questions from a failing primary node: it opens after five failures in a row
and closes again when the last one is long enough ago.
-/

namespace GaslessRelay.Rpc

def breakerThreshold : Nat := 5

/-- How long the breaker stays open after a failure, in milliseconds. -/
def breakerWindow : Nat := 30000

structure Circuit where
  failures : Nat := 0
  lastFailure : Nat := 0
  isOpen : Bool := false
  failovers : Nat := 0
deriving DecidableEq, Repr

namespace Circuit

/-- The breaker at a time: an open one closes once the window is over. -/
def refresh (circuit : Circuit) (now : Nat) : Circuit :=
  if circuit.isOpen ∧ breakerWindow < now - circuit.lastFailure then
    { circuit with isOpen := false, failures := 0 }
  else circuit

def recordSuccess (circuit : Circuit) : Circuit :=
  if 0 < circuit.failures then { circuit with failures := 0, isOpen := false } else circuit

def recordFailure (circuit : Circuit) (now : Nat) : Circuit :=
  let failed := { circuit with failures := circuit.failures + 1, lastFailure := now }
  if breakerThreshold ≤ failed.failures ∧ !failed.isOpen then
    { failed with isOpen := true, failovers := failed.failovers + 1 }
  else failed

def opensOnFailure (circuit : Circuit) : Bool :=
  breakerThreshold ≤ circuit.failures + 1 && !circuit.isOpen

end Circuit

end GaslessRelay.Rpc
