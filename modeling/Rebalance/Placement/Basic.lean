import Rebalance.IdMap
import Rebalance.Ident

/-!
Which host holds which partitions. A host may hold none, and a placement that was not built
by insertion may hold a partition on several hosts.
-/

namespace Rebalance

structure Placement where
  hosts : IdMap IdSet
deriving DecidableEq, Inhabited

structure Relocation where
  partition : PartitionId
  source : HostId
  /-- None where the other placement does not hold the partition. -/
  target : Option HostId
deriving DecidableEq, Inhabited

namespace Placement

def empty : Placement := ⟨.empty⟩

instance : EmptyCollection Placement := ⟨empty⟩

def addHost (placement : Placement) (host : HostId) : Placement :=
  ⟨placement.hosts.upsert host (·.getD .empty)⟩

def insert (placement : Placement) (host : HostId) (partition : PartitionId) : Placement :=
  let others := placement.hosts.mapValues fun _ partitions => partitions.erase partition
  ⟨others.upsert host fun partitions => (partitions.getD .empty).insert partition⟩

def ofPairs (pairs : List (HostId × PartitionId)) : Placement :=
  pairs.foldl (fun placement pair => placement.insert pair.1 pair.2) empty

def hostOf (placement : Placement) (partition : PartitionId) : Option HostId :=
  (placement.hosts.entries.find? (fun entry => entry.2.contains partition)).map (·.1)

def partitionsOn (placement : Placement) (host : HostId) : Option IdSet :=
  placement.hosts.get? host

def hostIds (placement : Placement) : IdSet := placement.hosts.keys

def pairs (placement : Placement) : List (HostId × PartitionId) :=
  placement.hosts.entries.flatMap fun entry => entry.2.toList.map fun p => (entry.1, p)

def partitions (placement : Placement) : IdSet := IdSet.ofList (placement.pairs.map (·.2))

def partitionCount (placement : Placement) : Nat :=
  placement.hosts.values.foldl (fun total partitions => total + partitions.size) 0

def maxLoad (placement : Placement) : Nat :=
  placement.hosts.values.foldl (fun most partitions => max most partitions.size) 0

/-- The host of each partition; of several, the one with the largest identifier. -/
def byPartition (placement : Placement) : IdMap HostId :=
  IdMap.ofList (placement.pairs.map fun pair => (pair.2, pair.1))

def movesTo (placement target : Placement) : List Relocation :=
  let hosts := target.byPartition
  placement.byPartition.entries.filterMap fun entry =>
    let found := hosts.get? entry.1
    if found = some entry.2 then none
    else some { partition := entry.1, source := entry.2, target := found }

def movedCount (placement target : Placement) : Nat := (placement.movesTo target).length

def text (placement : Placement) : String :=
  let host (entry : HostId × IdSet) : String :=
    toString entry.1 ++ ":\x7b" ++ ", ".intercalate (entry.2.toList.map toString) ++ "\x7d"
  " ".intercalate (placement.hosts.entries.map host)

end Placement

end Rebalance
