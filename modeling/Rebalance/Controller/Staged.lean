import Rebalance.Controller.Basic

/-!
A cluster that does nothing by itself: its topology changes only by hand, and it refuses what
it has been told to refuse. Beside it, a record of what any cluster has accepted.
-/

namespace Rebalance

structure StagedCluster where
  topology : Topology
  /-- Polls that are still answered with "not ready". -/
  pendingPolls : Nat := 0
  snapshotFails : Bool := false
  /-- Target sites whose moves are refused. -/
  rejectMoves : IdSet := .empty
  /-- Sites whose retirement is refused. -/
  rejectReports : IdSet := .empty
deriving Inhabited

instance : Environment StagedCluster where
  isReady cluster :=
    if cluster.pendingPolls = 0 then (true, cluster)
    else (false, { cluster with pendingPolls := cluster.pendingPolls - 1 })
  snapshot cluster := (if cluster.snapshotFails then none else some cluster.topology, cluster)
  startMove move cluster := (!cluster.rejectMoves.contains move.targetSite, cluster)
  retireSite _ site cluster := (!cluster.rejectReports.contains site, cluster)

/-- A cluster with the moves and retirements it has accepted, oldest first. -/
structure Logged (σ : Type) where
  inner : σ
  moves : List Move := []
  retired : List (HostId × SiteId) := []
deriving Inhabited

instance {σ : Type} [Environment σ] : Environment (Logged σ) where
  isReady log :=
    let (answer, inner) := Environment.isReady log.inner
    (answer, { log with inner })
  snapshot log :=
    let (answer, inner) := Environment.snapshot log.inner
    (answer, { log with inner })
  startMove move log :=
    let (accepted, inner) := Environment.startMove move log.inner
    (accepted, { log with inner, moves := if accepted then log.moves ++ [move] else log.moves })
  retireSite host site log :=
    let (accepted, inner) := Environment.retireSite host site log.inner
    (accepted,
      { log with
        inner
        retired := if accepted then log.retired ++ [(host, site)] else log.retired })

def Logged.reset {σ : Type} (log : Logged σ) : Logged σ := { inner := log.inner }

end Rebalance
