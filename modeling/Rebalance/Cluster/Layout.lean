import Rebalance.Topology

/-!
The shape of a simulated cluster. Its hosts are 100, 200, 300 and so on; the first partition
of a host is the host's number plus one.
-/

namespace Rebalance

structure Layout where
  hosts : Nat
  partitionsPerHost : Nat
  /-- Down sites on each host, free to be copied into. -/
  spareSites : Nat
deriving DecidableEq, Inhabited

inductive LayoutError
  | noHosts
  | noPartitions
  | tooManyPartitions
deriving DecidableEq, Inhabited

def LayoutError.message : LayoutError → String
  | noHosts => "--hosts must be > 0"
  | noPartitions => "--partitions-per-host must be > 0"
  | tooManyPartitions => "--partitions-per-host must be < 100"

namespace Layout

def hostIds (layout : Layout) : List HostId :=
  (List.range layout.hosts).map fun index => (index + 1) * 100

def partitionsOf (layout : Layout) (host : HostId) : List PartitionId :=
  (List.range layout.partitionsPerHost).map fun index => host + (index + 1)

def validate (layout : Layout) : Except LayoutError Unit := do
  if layout.hosts = 0 then throw .noHosts
  if layout.partitionsPerHost = 0 then throw .noPartitions
  if 100 ≤ layout.partitionsPerHost then throw .tooManyPartitions

def slotsOf (layout : Layout) (host : HostId) : List (HostId × Option PartitionId) :=
  (layout.partitionsOf host).map (fun partition => (host, some partition))
    ++ List.replicate layout.spareSites (host, none)

/-- The sites, numbered from 1: on each host those that serve its partitions, then the spare
ones. -/
def sites (layout : Layout) : List Site :=
  (layout.hostIds.flatMap layout.slotsOf).zipIdx.map fun (slot, index) =>
    { id := index + 1, host := slot.1, partition := slot.2, up := slot.2.isSome }

def topology (layout : Layout) : Topology := .new layout.hostIds layout.sites

end Layout

end Rebalance
