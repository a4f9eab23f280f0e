import Rebalance.Placement.Basic
import Rebalance.Schedule.Basic

/-!
The cost of a placement for a sample. Hosts and partitions are numbered, a placement becomes
an assignment of host numbers to partition numbers, and the cost of an assignment weighs the
fastest and the slowest schedule by the share of single-partition groups.
-/

namespace Rebalance

abbrev Assignment := Array (Option Nat)

/-- What a group pays for partitions away from its initiator. -/
inductive Penalty (α : Type)
  /-- One partition, by number where the model has it. -/
  | single (partition : Option Nat) (cost : α)
  /-- The dearest of all partitions, costs by number. -/
  | every (costs : List α)
deriving Inhabited

/-- The cost of one group as a function of the assignment. -/
structure CostTerm (α : Type) where
  base : α
  /-- Host number of the initiator, where the model has it. -/
  initiator : Option Nat
  penalty : Penalty α
deriving Inhabited

structure Model (α : Type) where
  hosts : List HostId
  partitions : List PartitionId
  terms : Array (CostTerm α)
  best : Schedule
  worst : Schedule
  /-- The weight of the fastest schedule. -/
  weight : α
deriving Inhabited

namespace CostTerm

variable {α : Type} [Scalar α]

def ofGroup (hosts : List HostId) (partitions : List PartitionId) (group : Group) : CostTerm α :=
  match group.latency with
  | none =>
    { base := Scalar.zero, initiator := none
      penalty := .every (partitions.map fun _ => Scalar.zero) }
  | some latency =>
    let n : α := Scalar.ofCount group.transactions
    let cost (partition : PartitionId) : α := n * Scalar.ofCount (latency.penalty partition).ns
    { base := n * Scalar.ofCount latency.near.ns
      initiator := hosts.idxOf? group.key.host
      penalty := match group.key.scope with
        | .single partition => .single (partitions.idxOf? partition) (cost partition)
        | .every => .every (partitions.map cost) }

/-- Whether a partition counts as away from the initiator. An unknown initiator is away from
everything and an unknown partition from everyone, while one that is merely not assigned yet
counts as at home. -/
@[inline] def isAway (initiator : Option Nat) (assignment : Assignment) (partition : Option Nat) :
    Bool :=
  match initiator, partition with
  | none, _ => true
  | some _, none => true
  | some host, some number =>
    match assignment[number]?.getD none with
    | some assigned => assigned != host
    | none => false

@[specialize] def awayCosts (initiator : Option Nat) (assignment : Assignment) :
    Nat → List α → List α
  | _, [] => []
  | index, cost :: costs =>
    if isAway initiator assignment (some index) then
      cost :: awayCosts initiator assignment (index + 1) costs
    else awayCosts initiator assignment (index + 1) costs

@[specialize] def cost (term : CostTerm α) (assignment : Assignment) : α :=
  match term.penalty with
  | .single partition cost =>
    if isAway term.initiator assignment partition then term.base + cost else term.base
  | .every costs =>
    term.base + Scalar.largest (awayCosts term.initiator assignment 0 costs)

def stake (term : CostTerm α) (partition : Nat) : α :=
  match term.penalty with
  | .single (some number) cost => if number = partition then cost else Scalar.zero
  | .single none _ => Scalar.zero
  | .every costs => costs.getD partition Scalar.zero

end CostTerm

namespace Model

variable {α : Type} [Scalar α]

/-- Numbers the hosts of `hosts` and `current` and the partitions of `current`, both in
ascending order. The sample is expected to be reconciled. -/
def build (sample : Sample) (current : Placement) (hosts : IdSet) : Model α :=
  let hosts := (hosts.union current.hostIds).toList
  let partitions := current.partitions.toList
  { hosts, partitions
    terms := sample.groups.map (CostTerm.ofGroup hosts partitions)
    best := Schedule.best sample
    worst := Schedule.worst sample
    weight := sample.singleShare }

def hostNumber (model : Model α) (host : HostId) : Option Nat := model.hosts.idxOf? host

def assignmentOf (model : Model α) (placement : Placement) : Assignment :=
  let hosts := placement.byPartition
  (model.partitions.map fun partition => (hosts.get? partition).bind model.hostNumber).toArray

/-- The placement that an assignment describes; hosts without partitions are left out. -/
def decode (model : Model α) (assignment : Assignment) : Placement :=
  let place (placement : Placement) (entry : PartitionId × Option Nat) : Placement :=
    match entry.2.bind (model.hosts[·]?) with
    | some host => placement.insert host entry.1
    | none => placement
  (model.partitions.zip assignment.toList).foldl place .empty

/-- The estimated execution time of an assignment. While partitions are not assigned it is a
lower bound for every way to assign them. -/
@[specialize] def objective (model : Model α) (assignment : Assignment) : α :=
  let costs := model.terms.map (·.cost assignment)
  let cost (group : GroupId) : α := costs.getD group Scalar.zero
  model.weight * model.best.time cost + (Scalar.one - model.weight) * model.worst.time cost

def affinity (model : Model α) (partition : Nat) : Array α :=
  let add (affinity : Array α) (term : CostTerm α) : Array α :=
    match term.initiator with
    | some host => affinity.modify host (· + term.stake partition)
    | none => affinity
  model.terms.foldl add (model.hosts.map fun _ => Scalar.zero).toArray

end Model

/-- The estimated execution time of a sample under a placement. -/
def estimatedTime {α : Type} [Scalar α] (sample : Sample) (placement : Placement) : α :=
  let model : Model α := Model.build sample placement placement.hostIds
  model.objective (model.assignmentOf placement)

end Rebalance
