import OrderingService.Decimal.Shortest
import OrderingService.Metrics.Basic

/-!
# The text form of metrics

Each family of metrics takes two lines that tell its meaning and kind, then its samples. A
histogram has a line per bucket that counts what is not above its bound, one for everything, and
the sum and the count.

## Main definitions

* `MetricFamily`, `Metrics.families` — the families in the order of their names
* `Metrics.exposition` — the lines of all families
-/

namespace OrderingService

/-- The samples of a family. -/
inductive MetricSamples where
  | counter (total : Nat)
  | gauge (level : Int)
  | histogram (bounds observed : List Float)

/-- A family of metrics. -/
structure MetricFamily where
  name : String
  meaning : String
  samples : MetricSamples

namespace MetricFamily

/-- The line of a bucket. -/
def bucketLine (name bound : String) (count : Nat) : String :=
  name ++ "_bucket\x7ble=\"" ++ bound ++ "\"\x7d " ++ toString count

/-- The kind of a family. -/
def kind (f : MetricFamily) : String :=
  match f.samples with
  | .counter _ => "counter"
  | .gauge _ => "gauge"
  | .histogram .. => "histogram"

/-- The lines of the samples. -/
def sampleLines (f : MetricFamily) : List String :=
  match f.samples with
  | .counter total => [f.name ++ " " ++ toString total]
  | .gauge level => [f.name ++ " " ++ toString level]
  | .histogram bounds observed =>
    (bounds.map fun bound =>
      bucketLine f.name (Decimal.ofFloat bound) (observed.countP (· ≤ bound))) ++
    [bucketLine f.name "+Inf" observed.length,
     f.name ++ "_sum " ++ Decimal.ofFloat (Metrics.sum observed),
     f.name ++ "_count " ++ toString observed.length]

/-- The lines of a family. -/
def lines (f : MetricFamily) : List String :=
  ["# HELP " ++ f.name ++ " " ++ f.meaning, "# TYPE " ++ f.name ++ " " ++ f.kind] ++ f.sampleLines

end MetricFamily

namespace Metrics

/-- The bounds of the buckets of batch sizes. -/
def sizeBounds : List Float := [1, 5, 10, 25, 50, 100, 250, 500]

/-- The bounds of the buckets of commit times. -/
def secondsBounds : List Float := [0.0001, 0.0005, 0.001, 0.005, 0.01, 0.05, 0.1, 0.5]

/-- The families in the order of their names. -/
def families (m : Metrics) : List MetricFamily := [
  ⟨"orderer_batch_size", "Histogram of batch sizes", .histogram sizeBounds m.sizesObserved⟩,
  ⟨"orderer_batches_total", "Total number of batches cut", .counter m.batches⟩,
  ⟨"orderer_deliver_streams", "Number of open deliver streams", .gauge m.streams⟩,
  ⟨"orderer_transactions_received_total",
    "Total number of transactions accepted for ordering", .counter m.received⟩,
  ⟨"orderer_transactions_rejected_total",
    "Total number of broadcast requests rejected", .counter m.rejected⟩,
  ⟨"orderer_tree_build_duration_seconds",
    "Histogram of merkle tree build latencies", .histogram secondsBounds m.buildSeconds⟩]

/-- The lines of all families. -/
def exposition (m : Metrics) : List String := m.families.flatMap MetricFamily.lines

end Metrics

end OrderingService
