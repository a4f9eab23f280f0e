import Rebalance.Cluster.Layout
import Rebalance.Migration.Run

/-!
A simulated cluster. A move that it accepts reserves the target site at once; the copy ends
after a fixed delay, which brings the target site up. A site that is retired goes down.
-/

namespace Rebalance

structure Copy where
  move : Move
  due : Nat
deriving DecidableEq, Inhabited

structure SimulatedCluster where
  topology : Topology
  ready : Bool := true
  copyDelay : Nat
  clock : Nat
  /-- In order of their start. -/
  copies : List Copy := []
  movesStarted : Nat := 0
  movesFinished : Nat := 0
  sitesFailed : Nat := 0
deriving DecidableEq, Inhabited

inductive MoveError
  | unknownTarget (site : SiteId)
  | targetNotFree (site : SiteId) (host : HostId)
  | sourceNotServing (site : SiteId) (partition : PartitionId)
deriving DecidableEq, Inhabited

def MoveError.message : MoveError → String
  | unknownTarget site => "unknown destination site " ++ toString site
  | targetNotFree site host =>
    "destination site " ++ toString site ++ " is not a down site on host " ++ toString host
  | sourceNotServing site partition =>
    "source site " ++ toString site ++ " does not serve partition " ++ toString partition

inductive RetireError
  | unknownSite (site : SiteId)
  | notOnHost (site : SiteId) (host : HostId)
deriving DecidableEq, Inhabited

def RetireError.message : RetireError → String
  | unknownSite site => "unknown site " ++ toString site
  | notOnHost site host => "site " ++ toString site ++ " is not on host " ++ toString host

namespace SimulatedCluster

def new (layout : Layout) (copyDelay clock : Nat) : SimulatedCluster :=
  { topology := layout.topology, copyDelay, clock }

def placement (cluster : SimulatedCluster) : Placement := cluster.topology.placement

def servesSource (cluster : SimulatedCluster) (move : Move) : Bool :=
  match cluster.topology.site? move.sourceSite with
  | some site =>
    site.up && site.host = move.sourceHost && site.partition = some move.partition
  | none => false

def startMove (cluster : SimulatedCluster) (move : Move) :
    Except MoveError SimulatedCluster :=
  match cluster.topology.site? move.targetSite with
  | none => .error (.unknownTarget move.targetSite)
  | some site =>
    if site.host != move.targetHost || site.up then
      .error (.targetNotFree move.targetSite move.targetHost)
    else if !cluster.servesSource move then
      .error (.sourceNotServing move.sourceSite move.partition)
    else
      .ok
        { cluster with
          topology := cluster.topology.assign move.targetSite move.partition
          copies := cluster.copies ++ [{ move, due := cluster.clock + cluster.copyDelay }]
          movesStarted := cluster.movesStarted + 1 }

/-- Ends a copy that was taken off the list of those under way: the target site serves. -/
def finish (cluster : SimulatedCluster) (move : Move) : SimulatedCluster :=
  { cluster with
    topology := (cluster.topology.assign move.targetSite move.partition).setUp move.targetSite true
    movesFinished := cluster.movesFinished + 1 }

def retire (cluster : SimulatedCluster) (host : HostId) (site : SiteId) :
    Except RetireError SimulatedCluster :=
  match cluster.topology.site? site with
  | none => .error (.unknownSite site)
  | some found =>
    if found.host != host then .error (.notOnHost site host)
    else
      .ok
        { cluster with
          topology := cluster.topology.setUp site false
          sitesFailed := cluster.sitesFailed + 1 }

/-- The copy that ends next; of several, the one that was started first. -/
def nextCopy? (cluster : SimulatedCluster) : Option Copy :=
  Plan.leastBy Copy.due cluster.copies

/-- The copy that ends next, if it is due by `target`. -/
def nextDue? (cluster : SimulatedCluster) (target : Nat) : Option Copy :=
  cluster.nextCopy?.filter (·.due ≤ target)

def endCopy (cluster : SimulatedCluster) (copy : Copy) : SimulatedCluster :=
  { cluster with
    clock := max cluster.clock copy.due
    copies := cluster.copies.erase copy }.finish copy.move

instance : Environment SimulatedCluster where
  isReady cluster := (cluster.ready, cluster)
  snapshot cluster := (some cluster.topology, cluster)
  startMove move cluster :=
    match cluster.startMove move with
    | .ok cluster => (true, cluster)
    | .error _ => (false, cluster)
  retireSite host site cluster :=
    match cluster.retire host site with
    | .ok cluster => (true, cluster)
    | .error _ => (false, cluster)

end SimulatedCluster

end Rebalance
