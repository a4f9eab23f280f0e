import Rebalance.Cluster.Simulated

/-!
A simulated cluster whose acknowledgements go to a channel of bounded capacity. The cluster
by itself does not keep the channel open; a copy that ends while no one does is not
acknowledged. An acknowledgement that waits for room in the channel keeps it open.
-/

namespace Rebalance

structure AckedCluster where
  cluster : SimulatedCluster
  capacity : Nat
  /-- Acknowledged and not yet received, oldest first; those past the capacity wait for room. -/
  pending : List SiteId := []
  /-- Whether anyone but the cluster keeps the channel open. -/
  held : Bool := true
deriving Inhabited

namespace AckedCluster

def isOpen (acked : AckedCluster) : Bool := acked.held || acked.capacity < acked.pending.length

def finishUntil (target : Nat) : Nat → AckedCluster → AckedCluster
  | 0, acked => acked
  | fuel + 1, acked =>
    match acked.cluster.nextDue? target with
    | some copy =>
      let site := copy.move.targetSite
      let pending := if acked.isOpen then acked.pending ++ [site] else acked.pending
      finishUntil target fuel { acked with cluster := acked.cluster.endCopy copy, pending }
    | none => acked

def settle (acked : AckedCluster) : AckedCluster :=
  finishUntil acked.cluster.clock acked.cluster.copies.length acked

def startMove (acked : AckedCluster) (move : Move) : Except MoveError AckedCluster :=
  (acked.cluster.startMove move).map fun cluster => { acked with cluster }.settle

def sleep (acked : AckedCluster) (span : Nat) : AckedCluster :=
  { acked with cluster := { acked.cluster with clock := acked.cluster.clock + span } }.settle

def drain (acked : AckedCluster) : List SiteId × AckedCluster :=
  (acked.pending, { acked with pending := [] })

end AckedCluster

end Rebalance
