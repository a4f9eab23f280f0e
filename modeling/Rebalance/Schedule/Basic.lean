import Rebalance.Sample.Basic

/-!
Schedules that bound the execution time of a sample from below and from above. A group runs
alone, or side by side with other single-partition groups: transactions on different
partitions run concurrently, and one on several partitions blocks every other.
-/

namespace Rebalance

inductive Block
  /-- One group that occupies the schedule exclusively. -/
  | serial (group : GroupId)
  /-- One chain of groups per partition, the chains side by side. -/
  | concurrent (chains : IdMap (List GroupId))
deriving DecidableEq, Inhabited

abbrev Schedule := List Block

namespace Schedule

def singles (sample : Sample) : List (GroupId × PartitionId) :=
  sample.singleIds.filterMap fun id =>
    ((sample.group? id).bind (·.key.partition?)).map fun partition => (id, partition)

def chainsOf (members : List (GroupId × PartitionId)) : IdMap (List GroupId) :=
  members.foldl (fun chains member => chains.upsert member.2 (fun chain => chain.getD [] ++ [member.1]))
    .empty

/-- The fastest order: all single-partition groups in one concurrent block, then every other
group by itself. -/
def best (sample : Sample) : Schedule :=
  let members := singles sample
  let block := if members.isEmpty then [] else [Block.concurrent (chainsOf members)]
  block ++ sample.multiIds.map Block.serial

/-- The median by which groups are ranked; zero before reconciliation. -/
def observedMedian (sample : Sample) (id : GroupId) : Nat :=
  (((sample.group? id).bind (·.latency)).map (·.observed)).getD 0

def slowestFirst (sample : Sample) (ids : List GroupId) : List GroupId :=
  ids.mergeSort fun a b => observedMedian sample b ≤ observedMedian sample a

def lone (sample : Sample) (id : GroupId) : Block :=
  match (sample.group? id).bind (·.key.partition?) with
  | some partition => .concurrent (chainsOf [(id, partition)])
  | none => .concurrent .empty

/-- Single-partition and other groups in turn, for as long as both last; then the rest, a
single-partition group in a block of its own and any other group serially. -/
def interleave (sample : Sample) : List GroupId → List GroupId → Schedule
  | single :: singles, multi :: multis =>
    .serial single :: .serial multi :: interleave sample singles multis
  | [], multis => multis.map Block.serial
  | singles, [] => singles.map (lone sample)

/-- The slowest order: no two groups side by side, both kinds slowest first. -/
def worst (sample : Sample) : Schedule :=
  interleave sample (slowestFirst sample sample.singleIds) (slowestFirst sample sample.multiIds)

end Schedule

variable {α : Type} [Scalar α]

@[specialize] def Block.time (cost : GroupId → α) : Block → α
  | .serial group => cost group
  | .concurrent chains =>
    Scalar.largest (chains.values.map fun chain => Scalar.sum (chain.map cost))

@[specialize] def Schedule.time (cost : GroupId → α) (schedule : Schedule) : α :=
  Scalar.sum (schedule.map (Block.time cost))

end Rebalance
