import GaslessRelay.Text.Binary64
import GaslessRelay.Text.Numeral

/-!
The counters of the relay client and their text for a metrics scrape.
-/

namespace GaslessRelay

inductive Counter where
  | relaysSubmitted
  | relaysConfirmed
  | relaysReverted
  | sequenceMismatches
  | custodyCalls
  | custodyBatches
  | rpcFailovers
  | rpcErrors
  | rpcRetries
deriving DecidableEq, Repr

structure Metrics where
  relaysSubmitted : UInt64 := 0
  relaysConfirmed : UInt64 := 0
  relaysReverted : UInt64 := 0
  sequenceMismatches : UInt64 := 0
  custodyCalls : UInt64 := 0
  custodyBatches : UInt64 := 0
  waitMicrosSum : UInt64 := 0
  waitMicrosMax : UInt64 := 0
  rpcFailovers : UInt64 := 0
  rpcErrors : UInt64 := 0
  rpcRetries : UInt64 := 0
deriving DecidableEq, Repr

namespace Metrics

def get (metrics : Metrics) : Counter → UInt64
  | .relaysSubmitted => metrics.relaysSubmitted
  | .relaysConfirmed => metrics.relaysConfirmed
  | .relaysReverted => metrics.relaysReverted
  | .sequenceMismatches => metrics.sequenceMismatches
  | .custodyCalls => metrics.custodyCalls
  | .custodyBatches => metrics.custodyBatches
  | .rpcFailovers => metrics.rpcFailovers
  | .rpcErrors => metrics.rpcErrors
  | .rpcRetries => metrics.rpcRetries

def bump (metrics : Metrics) : Counter → Metrics
  | .relaysSubmitted => { metrics with relaysSubmitted := metrics.relaysSubmitted + 1 }
  | .relaysConfirmed => { metrics with relaysConfirmed := metrics.relaysConfirmed + 1 }
  | .relaysReverted => { metrics with relaysReverted := metrics.relaysReverted + 1 }
  | .sequenceMismatches => { metrics with sequenceMismatches := metrics.sequenceMismatches + 1 }
  | .custodyCalls => { metrics with custodyCalls := metrics.custodyCalls + 1 }
  | .custodyBatches => { metrics with custodyBatches := metrics.custodyBatches + 1 }
  | .rpcFailovers => { metrics with rpcFailovers := metrics.rpcFailovers + 1 }
  | .rpcErrors => { metrics with rpcErrors := metrics.rpcErrors + 1 }
  | .rpcRetries => { metrics with rpcRetries := metrics.rpcRetries + 1 }

theorem get_bump (metrics : Metrics) (counter other : Counter) :
    (metrics.bump counter).get other
      = if other = counter then metrics.get other + 1 else metrics.get other := by
  cases counter <;> cases other <;> rfl

/-- Microseconds as seconds with six decimals, as far as a binary fraction holds them. -/
def seconds (micros : UInt64) : String :=
  let quotient := do
    let number ← Text.Binary64.ofRatio? false micros.toNat 1
    let (top, bottom) := number.ratio
    Text.Binary64.ofRatio? false top (bottom * 1000000)
  match quotient with
  | some number => number.fixedText 6
  | none => ""

def renderOne (name help kind value : String) : String :=
  "# HELP relayer_" ++ name ++ " " ++ help ++ "\n# TYPE relayer_" ++ name ++ " " ++ kind
    ++ "\nrelayer_" ++ name ++ " " ++ value ++ "\n"

def renderCounter (name help : String) (value : UInt64) : String :=
  renderOne name help "counter" (toString value.toNat)

/-- The text of a scrape, and the metrics after it: the longest wait starts afresh. -/
def scrape (metrics : Metrics) : String × Metrics :=
  let text := String.join [
    renderCounter "relays_submitted_total" "Relay requests submitted to the ledger."
      metrics.relaysSubmitted,
    renderCounter "relays_confirmed_total" "Relay requests confirmed." metrics.relaysConfirmed,
    renderCounter "relays_reverted_total" "Relay requests reverted by the ledger."
      metrics.relaysReverted,
    renderCounter "sequence_mismatches_total" "Reverts caused by a stale sequence number."
      metrics.sequenceMismatches,
    renderCounter "custody_calls_total" "Single calls proposed through the custody account."
      metrics.custodyCalls,
    renderCounter "custody_batches_total" "Batches proposed through the custody account."
      metrics.custodyBatches,
    renderOne "confirm_wait_seconds_sum" "Total confirmation wait time (seconds)." "counter"
      (seconds metrics.waitMicrosSum),
    renderOne "confirm_wait_seconds_max" "Max confirmation wait since last scrape (seconds)."
      "gauge" (seconds metrics.waitMicrosMax),
    renderCounter "rpc_failovers_total" "RPC primary-to-fallback failovers." metrics.rpcFailovers,
    renderCounter "rpc_errors_total" "RPC errors." metrics.rpcErrors,
    renderCounter "rpc_retries_total" "Read-only RPC retries." metrics.rpcRetries]
  (text, { metrics with waitMicrosMax := 0 })

end Metrics

end GaslessRelay
