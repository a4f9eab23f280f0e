import Rebalance.Sample.Basic
import Rebalance.Telemetry.Record
import Rebalance.Topology

/-!
Turning records into a sample, seen against the topology of the moment of deciding.
-/

namespace Rebalance

structure ReplayStats where
  /-- Records whose coordinator ran on the initiator's host. -/
  near : Nat := 0
  far : Nat := 0
  /-- Single-partition records that name no partition. -/
  malformed : Nat := 0
  partitionLatencies : Nat := 0
deriving DecidableEq, Inhabited

def Record.isMalformed (record : Record) : Bool := record.isSingle && record.partition.isNone

/-- The group a record belongs to; none for a malformed record. -/
def Record.key? (record : Record) : Option GroupKey :=
  let key (scope : Scope) : GroupKey :=
    { procedure := record.procedure, host := record.initiatorHost, scope }
  if record.isSingle then record.partition.map fun partition => key (.single partition)
  else some (key .every)

theorem Record.key?_eq_none_iff {record : Record} :
    record.key? = none ↔ record.isMalformed = true := by
  unfold key? isMalformed
  cases record.isSingle with
  | true => simp
  | false => simp

theorem Record.isMalformed_of_key? {record : Record} {key : GroupKey}
    (known : record.key? = some key) : record.isMalformed = false := by
  rw [← Bool.not_eq_true, ← key?_eq_none_iff, known]
  exact Option.some_ne_none key

def Record.locality (record : Record) (topology : Topology) : Locality :=
  if topology.hostOfSite record.coordinatorSite = some record.initiatorHost then .near else .far

def clockDifference (later earlier : Int) : Int :=
  max (-(Int.pow 2 63)) (min (Int.pow 2 63 - 1) (later - earlier))

/-- The partition that a message's latency is charged to and the latency. Only a message to a
known, mapped site on another host than the initiator's is charged. -/
def MessageTiming.charge? (message : MessageTiming) (initiator : HostId) (topology : Topology) :
    Option (PartitionId × Int) :=
  match topology.site? message.receiver with
  | some site =>
    if site.host = initiator then none
    else site.partition.map fun partition =>
      (partition, clockDifference message.received message.sent)
  | none => none

def Record.charges (record : Record) (topology : Topology) : List (PartitionId × Int) :=
  record.messages.filterMap (·.charge? record.initiatorHost topology)

def ReplayStats.count (stats : ReplayStats) (locality : Locality) (charges : Nat) : ReplayStats :=
  let charged := { stats with partitionLatencies := stats.partitionLatencies + charges }
  match locality with
  | .near => { charged with near := charged.near + 1 }
  | .far => { charged with far := charged.far + 1 }

def replayRecord (topology : Topology) (state : ReplayStats × Sample) (record : Record) :
    ReplayStats × Sample :=
  match record.key? with
  | none => ({ state.1 with malformed := state.1.malformed + 1 }, state.2)
  | some key =>
    let locality := record.locality topology
    let charges := record.charges topology
    let recorded := (state.2.recordTransaction key record.latency locality).2
    let sample := charges.foldl
      (fun sample charge => (sample.recordPartition key charge.1 charge.2 false).2) recorded
    (state.1.count locality charges.length, sample)

theorem Sample.cap_foldl_recordPartition (sample : Sample) (key : GroupKey)
    (charges : List (PartitionId × Int)) :
    (charges.foldl (fun sample charge => (sample.recordPartition key charge.1 charge.2 false).2)
      sample).cap = sample.cap := by
  induction charges generalizing sample with
  | nil => rfl
  | cons charge charges ih =>
    rw [List.foldl_cons, ih]
    exact cap_recordPartition sample key charge.1 charge.2 false

theorem cap_replayRecord (topology : Topology) (state : ReplayStats × Sample) (record : Record) :
    (replayRecord topology state record).2.cap = state.2.cap := by
  unfold replayRecord
  split
  · rfl
  · exact (Sample.cap_foldl_recordPartition ..).trans (Sample.cap_recordTransaction ..)

/-- Folds the records into the sample, in order. -/
def replayRecords (records : List Record) (sample : Sample) (topology : Topology) :
    ReplayStats × Sample :=
  records.foldl (replayRecord topology) ({}, sample)

theorem cap_replayRecords (records : List Record) (sample : Sample) (topology : Topology) :
    (replayRecords records sample topology).2.cap = sample.cap :=
  List.foldlRecOn (motive := fun state : ReplayStats × Sample => state.2.cap = sample.cap)
    records (replayRecord topology) rfl
    fun state same record _ => (cap_replayRecord topology state record).trans same

end Rebalance
