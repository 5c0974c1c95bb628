import Fanout.Ascending

/-!
# Metrics

The engine counts what it does. Counters have a label where the count is kept
apart by method or by status; the gauge of held collations exists from the first
time it is set.
-/

namespace Fanout

/-- What a metric is. -/
inductive MetricKind where
  | counter
  | gauge
  | histogram

namespace MetricKind

def name : MetricKind → String
  | counter => "counter"
  | gauge => "gauge"
  | histogram => "histogram"

end MetricKind

/-- A metric with what it tells. -/
structure Metric where
  name : String
  kind : MetricKind
  description : String

namespace Metric

def requests : Metric :=
  ⟨"replication_requests_total", .counter,
    "Total number of requests accepted for replication"⟩

def rejected : Metric :=
  ⟨"replication_rejected_total", .counter,
    "Total number of replication requests rejected before dispatch"⟩

def verifications : Metric :=
  ⟨"replication_verifications_total", .counter,
    "Total number of verification rounds run for mutable requests"⟩

def nodeFailures : Metric :=
  ⟨"replication_node_failures_total", .counter,
    "Total number of node calls that failed, timed out " ++
      "or returned a non-2xx status"⟩

def nodeLatency : Metric :=
  ⟨"replication_node_latency_seconds", .histogram,
    "Latency of individual node calls in seconds"⟩

def outstanding : Metric :=
  ⟨"replication_outstanding_requests", .gauge,
    "Number of cluster responses held by the registry"⟩

def all : List Metric :=
  [requests, rejected, verifications, nodeFailures, nodeLatency, outstanding]

end Metric

/-- The values of the metrics. -/
structure Metrics where
  /-- Accepted requests, by method. -/
  requests : List (String × Nat) := []
  /-- Rejected requests, by method. -/
  rejected : List (String × Nat) := []
  verifications : Nat := 0
  /-- Calls that did not succeed, by status. -/
  nodeFailures : List (String × Nat) := []
  /-- How many latencies were recorded. -/
  latencies : Nat := 0
  outstanding : Option Nat := none
  deriving DecidableEq, Repr

namespace Metrics

def bump (label : String) (counts : List (String × Nat)) :
    List (String × Nat) :=
  putAscending label ((valueAt? label counts).getD 0 + 1) counts

def setOutstanding (n : Nat) (m : Metrics) : Metrics :=
  { m with outstanding := some n }

/-- A metric's name with one label. -/
def labelled (metric : Metric) (label value : String) : String :=
  metric.name ++ "\x7b" ++ label ++ "=" ++ value ++ "\x7d"

/-- Every metric that has a value. -/
def values (m : Metrics) : List (String × Nat) :=
  m.requests.map (fun e => (labelled .requests "method" e.1, e.2)) ++
    m.rejected.map (fun e => (labelled .rejected "method" e.1, e.2)) ++
    (if m.verifications = 0 then []
      else [(Metric.verifications.name, m.verifications)]) ++
    m.nodeFailures.map (fun e => (labelled .nodeFailures "status" e.1, e.2)) ++
    (if m.latencies = 0 then []
      else [(Metric.nodeLatency.name, m.latencies)]) ++
    match m.outstanding with
    | some n => [(Metric.outstanding.name, n)]
    | none => []

end Metrics

end Fanout
