import Rebalance.Telemetry.Replay

/-!
One epoch's telemetry: counts of all that arrived, and the first records up to a cap.
-/

namespace Rebalance

structure LedgerCounts where
  /-- Batches received, empty ones included. -/
  batches : Nat := 0
  emptyBatches : Nat := 0
  records : Nat := 0
  single : Nat := 0
  multi : Nat := 0
  /-- Records that were counted only. -/
  dropped : Nat := 0
  perPartition : IdMap Nat := .empty
deriving DecidableEq, Inhabited

structure Ledger where
  maxRetained : Nat
  retained : Array Record := #[]
  counts : LedgerCounts := {}
deriving DecidableEq, Inhabited

namespace Ledger

def clear (ledger : Ledger) : Ledger := { maxRetained := ledger.maxRetained }

def records (ledger : Ledger) : List Record := ledger.retained.toList

def countRecord (counts : LedgerCounts) (record : Record) : LedgerCounts :=
  let counts := { counts with records := counts.records + 1 }
  let counts :=
    if record.isSingle then { counts with single := counts.single + 1 }
    else { counts with multi := counts.multi + 1 }
  match record.partition with
  | some partition =>
    { counts with perPartition := counts.perPartition.upsert partition (·.getD 0 + 1) }
  | none => counts

def addRecord (ledger : Ledger) (record : Record) : Ledger :=
  let counts := countRecord ledger.counts record
  if ledger.retained.size < ledger.maxRetained then
    { ledger with retained := ledger.retained.push record, counts }
  else { ledger with counts := { counts with dropped := counts.dropped + 1 } }

def countBatch (ledger : Ledger) (isEmpty : Bool) : Ledger :=
  let counts := { ledger.counts with batches := ledger.counts.batches + 1 }
  { ledger with
    counts := if isEmpty then { counts with emptyBatches := counts.emptyBatches + 1 } else counts }

def foldBatch (ledger : Ledger) (batch : List Record) : Ledger :=
  batch.foldl addRecord (ledger.countBatch batch.isEmpty)

def replayInto (ledger : Ledger) (sample : Sample) (topology : Topology) : ReplayStats × Sample :=
  replayRecords ledger.records sample topology

end Ledger

end Rebalance
