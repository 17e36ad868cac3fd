/-!
# Metrics

What the service counts about itself. A histogram keeps what was observed, in order; counts in
buckets and sums are read off it.

## Main definitions

* `Metrics` — counters, a gauge and two histograms
* `Metrics.recordBatch` and the other events
* `Metrics.sizeSum`, `Metrics.secondsSum`
-/

namespace OrderingService

/-- What the service counts about itself. -/
structure Metrics where
  /-- Transactions accepted for ordering. -/
  received : Nat := 0
  /-- Broadcast requests answered invalid. -/
  rejected : Nat := 0
  /-- Batches cut. -/
  batches : Nat := 0
  /-- The sizes of the batches, in order. -/
  batchSizes : List Nat := []
  /-- How long each batch took to commit, in seconds, in order. -/
  buildSeconds : List Float := []
  /-- Open deliver streams. -/
  streams : Int := 0

namespace Metrics

/-- A transaction was accepted. -/
def recordReceived (m : Metrics) : Metrics := { m with received := m.received + 1 }

/-- A request was answered invalid. -/
def recordRejected (m : Metrics) : Metrics := { m with rejected := m.rejected + 1 }

/-- A batch was cut. -/
def recordBatch (m : Metrics) (size : Nat) (seconds : Float) : Metrics :=
  { m with
    batches := m.batches + 1
    batchSizes := m.batchSizes ++ [size]
    buildSeconds := m.buildSeconds ++ [seconds] }

/-- A deliver stream was opened. -/
def streamOpened (m : Metrics) : Metrics := { m with streams := m.streams + 1 }

/-- A deliver stream was closed. -/
def streamClosed (m : Metrics) : Metrics := { m with streams := m.streams - 1 }

/-- The sum of what was observed, added up in order. -/
def sum (observed : List Float) : Float := observed.foldl (· + ·) 0

/-- The observed batch sizes. -/
def sizesObserved (m : Metrics) : List Float := m.batchSizes.map Nat.toFloat

/-- The sum of the batch sizes. -/
def sizeSum (m : Metrics) : Float := sum m.sizesObserved

/-- The sum of the commit times. -/
def secondsSum (m : Metrics) : Float := sum m.buildSeconds

/-- The printed form: the counters and the gauge. -/
def describe (m : Metrics) : String :=
  "Metrics \x7b transactions_received: " ++ toString m.received ++
    ", transactions_rejected: " ++ toString m.rejected ++
    ", batches_total: " ++ toString m.batches ++
    ", deliver_streams: " ++ toString m.streams ++ ", .. \x7d"

end Metrics

end OrderingService
