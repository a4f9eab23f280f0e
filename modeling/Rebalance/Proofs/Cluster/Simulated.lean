import Rebalance.Cluster.Simulated
import Rebalance.Proofs.Migration.Plan

/-!
What the requests to a simulated cluster come to. It takes exactly the moves that its topology
allows, and retires exactly the sites that it knows under their hosts.
-/

namespace Rebalance.SimulatedCluster

variable {cluster after : SimulatedCluster} {move : Move} {host : HostId} {site : SiteId}

def reserved (cluster : SimulatedCluster) (move : Move) : SimulatedCluster :=
  { cluster with
    topology := cluster.topology.assign move.targetSite move.partition
    copies := cluster.copies ++ [{ move, due := cluster.clock + cluster.copyDelay }]
    movesStarted := cluster.movesStarted + 1 }

theorem servesSource_iff : cluster.servesSource move = true ↔
    ∃ found, cluster.topology.site? move.sourceSite = some found ∧
      found.host = move.sourceHost ∧ found.up = true ∧ found.partition = some move.partition := by
  unfold servesSource
  cases cluster.topology.site? move.sourceSite with
  | none => simp
  | some found =>
    simp only [Bool.and_eq_true, decide_eq_true_eq, Option.some.injEq, exists_eq_left']
    tauto

theorem startMove_of_isFeasible (feasible : move.IsFeasible cluster.topology) :
    cluster.startMove move = .ok (cluster.reserved move) := by
  obtain ⟨target, here, host, down⟩ := feasible.target
  have serves := servesSource_iff.2 feasible.source
  simp [startMove, here, host, down, serves, reserved]

theorem isFeasible_of_startMove
    (started : cluster.startMove move = .ok after) : move.IsFeasible cluster.topology := by
  unfold startMove at started
  split at started
  · cases started
  · next target here =>
    split at started
    · cases started
    · next free =>
      split at started
      · cases started
      · next serves =>
        simp only [Bool.or_eq_true, bne_iff_ne, ne_eq, not_or, not_not] at free
        simp only [Bool.not_eq_true', Bool.not_eq_false] at serves
        exact ⟨⟨target, here, free.1, Bool.not_eq_true _ ▸ free.2⟩, servesSource_iff.1 serves⟩

theorem startMove_of_not_isFeasible (infeasible : ¬ move.IsFeasible cluster.topology) :
    ∃ error, cluster.startMove move = .error error := by
  cases started : cluster.startMove move with
  | ok after => exact absurd (isFeasible_of_startMove started) infeasible
  | error error => exact ⟨error, rfl⟩

def retired (cluster : SimulatedCluster) (site : SiteId) : SimulatedCluster :=
  { cluster with
    topology := cluster.topology.setUp site false
    sitesFailed := cluster.sitesFailed + 1 }

theorem retire_of_known {found : Site} (here : cluster.topology.site? site = some found)
    (on : found.host = host) : cluster.retire host site = .ok (cluster.retired site) := by
  simp [retire, here, on, retired]

theorem retire_of_unknown
    (unknown : ∀ found, cluster.topology.site? site = some found → found.host ≠ host) :
    ∃ error, cluster.retire host site = .error error := by
  unfold retire
  split
  · exact ⟨_, rfl⟩
  · next found here =>
    rw [if_pos (bne_iff_ne.2 (unknown found here))]
    exact ⟨_, rfl⟩

theorem of_nextDue? {target : Nat} {copy : Copy} (next : cluster.nextDue? target = some copy) :
    copy ∈ cluster.copies ∧ copy.due ≤ target := by
  obtain ⟨first, due⟩ := Option.filter_eq_some_iff.1 next
  exact ⟨Plan.mem_of_leastBy first, of_decide_eq_true due⟩

end Rebalance.SimulatedCluster
