import Rebalance.IdMap
import Rebalance.Sample.Key
import Rebalance.Sample.Latency

/-!
Latency statistics of one group of transactions, and the near and far latencies derived
from them.
-/

namespace Rebalance

/-- The latencies of a group, derived so that `1 ≤ near ≤ far`. -/
structure GroupLatency where
  near : Latency
  far : Latency
  /-- Median over every transaction latency, near or far. -/
  observed : Nat
  /-- Network latency of the partitions that were reached remotely. -/
  penalties : IdMap Latency
deriving DecidableEq, Inhabited

/-- The extra cost of a transaction whose `partition` is on another host than its initiator. -/
def GroupLatency.penalty (latency : GroupLatency) (partition : PartitionId) : Latency :=
  match latency.penalties.get? partition with
  | some penalty => penalty
  | none =>
    { ns := latency.far.ns - latency.near.ns
      isEstimate := latency.near.isEstimate || latency.far.isEstimate }

structure PartitionSamples where
  buffer : LatencyBuffer := {}
  /-- Whether any of the samples was measured. -/
  measured : Bool := false
deriving DecidableEq, Inhabited

structure Group where
  key : GroupKey
  transactions : Nat := 0
  near : LatencyBuffer := {}
  far : LatencyBuffer := {}
  partitions : IdMap PartitionSamples := .empty
  /-- Present from a reconciliation up to the next insertion. -/
  latency : Option GroupLatency := none
deriving DecidableEq, Inhabited

def doubled (ns : Nat) : Nat := min (2 * ns) wordMax

/-- The near and far latencies told by the medians of the near and far samples. A far median
below the near one only shows that the cluster is saturated, and is not believed. -/
def deriveLatencies : Option Nat → Option Nat → Latency × Latency
  | some near, some far =>
    if far < near then (.measured near, .inferred (doubled near))
    else (.measured near, .measured far)
  | some near, none => (.measured near, .inferred (doubled near))
  | none, some far => (.inferred (max ((far + 1) / 2) 1), .measured far)
  | none, none => (.inferred 1, .inferred 2)

namespace Group

def new (key : GroupKey) : Group := { key }

def recordTransaction (group : Group) (ns : Int) (locality : Locality) : Group :=
  let ns := Latency.clamp ns
  let counted := { group with transactions := group.transactions + 1, latency := none }
  match locality with
  | .near => { counted with near := counted.near.push ns }
  | .far => { counted with far := counted.far.push ns }

theorem key_recordTransaction (group : Group) (ns : Int) (locality : Locality) :
    (group.recordTransaction ns locality).key = group.key := by
  cases locality with
  | near => rfl
  | far => rfl

def recordPartition (group : Group) (partition : PartitionId) (ns : Int) (isEstimate : Bool) :
    Group :=
  let add (samples : Option PartitionSamples) : PartitionSamples :=
    let samples := samples.getD {}
    { buffer := samples.buffer.push (Latency.clamp ns)
      measured := samples.measured || !isEstimate }
  { group with partitions := group.partitions.upsert partition add, latency := none }

def reconcile (group : Group) : Group :=
  let (nearMedian, near) := group.near.median
  let (farMedian, far) := group.far.median
  let derived := deriveLatencies nearMedian farMedian
  let observed := (median? (near.samples.toList ++ far.samples.toList)).getD derived.1.ns
  let medians := group.partitions.mapValues fun _ samples =>
    let (median, buffer) := samples.buffer.median
    (median, { samples with buffer })
  let penalties := medians.mapValues fun _ entry =>
    { ns := entry.1.getD 0, isEstimate := !entry.2.measured : Latency }
  { group with
    near, far
    partitions := medians.mapValues fun _ entry => entry.2
    latency := some { near := derived.1, far := derived.2, observed, penalties } }

end Group

end Rebalance
