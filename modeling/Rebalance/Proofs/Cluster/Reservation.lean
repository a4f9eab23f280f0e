import Rebalance.Proofs.Cluster.Interleaved

/-!
Which sites are reserved for a copy. A copy that begins maps its target site to its partition,
but nobody looks at the copies under way when the next one is asked for. So a site stays
reserved as long as no second copy into it is taken on before the first one has ended. Where one
is, the site changes its partition under the first copy.
-/

namespace Rebalance

inductive ClusterAction
  | startMove (move : Move)
  | retireSite (host : HostId) (site : SiteId)
  /-- The clock comes to show this time. -/
  | reach (now : Nat)
  /-- A copy ends, told by its place among those under way. -/
  | endCopy (index : Nat)
deriving DecidableEq, Inhabited

namespace SimulatedCluster

def ended (cluster : SimulatedCluster) (index : Nat) (copy : Copy) : SimulatedCluster :=
  { cluster with copies := cluster.copies.eraseIdx index }.finish copy.move

/-- The cluster after one action. A request that is refused changes nothing, and neither does
the end of a copy that is not there. -/
def act (cluster : SimulatedCluster) : ClusterAction → SimulatedCluster
  | .startMove move => (Environment.startMove move cluster).2
  | .retireSite host site => (Environment.retireSite host site cluster).2
  | .reach now => { cluster with clock := now }
  | .endCopy index =>
    match cluster.copies[index]? with
    | some copy => cluster.ended index copy
    | none => cluster

def after (cluster : SimulatedCluster) (actions : List ClusterAction) : SimulatedCluster :=
  actions.foldl act cluster

def copiesInto (cluster : SimulatedCluster) (site : SiteId) : List Copy :=
  cluster.copies.filter (·.move.targetSite = site)

def overbooks (cluster : SimulatedCluster) (site : SiteId) : ClusterAction → Bool
  | .startMove move =>
    move.targetSite = site && !(cluster.copiesInto site).isEmpty &&
      (Environment.startMove move cluster).1
  | _ => false

/-- Whether the cluster ever does so in the course of these actions. -/
def everOverbooks (site : SiteId) : SimulatedCluster → List ClusterAction → Bool
  | _, [] => false
  | cluster, action :: actions =>
    cluster.overbooks site action || everOverbooks site (cluster.act action) actions

/-- No copy into the site is under way, or just one, for whose partition the site waits. -/
inductive Reserves (cluster : SimulatedCluster) (site : SiteId) : Prop where
  | free (none : cluster.copiesInto site = [])
  | taken {copy : Copy} {found : Site} (sole : cluster.copiesInto site = [copy])
      (here : cluster.topology.site? site = some found)
      (host : found.host = copy.move.targetHost) (down : found.up = false)
      (mapped : found.partition = some copy.move.partition)

variable {cluster next : SimulatedCluster} {site : SiteId} {move : Move}

theorem startMove_taken (feasible : move.IsFeasible cluster.topology) :
    Environment.startMove move cluster = (true, cluster.reserved move) := by
  simp only [Environment.startMove, startMove_of_isFeasible feasible]

theorem startMove_refused (infeasible : ¬ move.IsFeasible cluster.topology) :
    Environment.startMove move cluster = (false, cluster) := by
  obtain ⟨error, refused⟩ := startMove_of_not_isFeasible infeasible
  simp only [Environment.startMove, refused]

theorem retireSite_cases (cluster : SimulatedCluster) (host : HostId) (site : SiteId) :
    (Environment.retireSite host site cluster).2 = cluster ∨
      (Environment.retireSite host site cluster).2 = cluster.retired site := by
  simp only [Environment.retireSite]
  cases done : cluster.retire host site with
  | error error => exact .inl rfl
  | ok next =>
    unfold retire at done
    split at done
    · cases done
    · split at done
      · cases done
      · cases done
        exact .inr rfl

theorem copiesInto_reserved_of_ne (away : move.targetSite ≠ site) :
    (cluster.reserved move).copiesInto site = cluster.copiesInto site := by
  unfold copiesInto reserved
  rw [List.filter_append, List.filter_singleton, decide_eq_false away]
  exact List.append_nil _

theorem copiesInto_reserved (cluster : SimulatedCluster) (move : Move) :
    (cluster.reserved move).copiesInto move.targetSite =
      cluster.copiesInto move.targetSite ++ [⟨move, cluster.clock + cluster.copyDelay⟩] := by
  unfold copiesInto reserved
  rw [List.filter_append, List.filter_singleton, decide_eq_true rfl]
  rfl

theorem site?_reserved {found : Site} (here : cluster.topology.site? move.targetSite = some found) :
    (cluster.reserved move).topology.site? move.targetSite =
      some { found with partition := some move.partition } := by
  change (cluster.topology.assign move.targetSite move.partition).site? move.targetSite = _
  rw [Topology.site?_assign, if_pos rfl, here]
  rfl

theorem copiesInto_ended {index : Nat} {copy : Copy}
    (found : cluster.copies[index]? = some copy) (site : SiteId) :
    (if copy.move.targetSite = site then copy :: (cluster.ended index copy).copiesInto site
      else (cluster.ended index copy).copiesInto site).Perm (cluster.copiesInto site) := by
  have parts := (InterleavedCluster.perm_of_getElem? found).filter (·.move.targetSite = site)
  simp only [List.filter_cons, decide_eq_true_eq] at parts
  exact parts

theorem Reserves.congr (reserves : cluster.Reserves site)
    (same : (next.copiesInto site).Perm (cluster.copiesInto site))
    (kept : ∀ found, cluster.topology.site? site = some found → found.up = false →
      next.topology.site? site = some found) : next.Reserves site := by
  cases reserves with
  | free none => exact .free (none ▸ same).eq_nil
  | taken sole here host down mapped =>
    exact .taken (List.perm_singleton.1 (sole ▸ same)) (kept _ here down) host down mapped

theorem Reserves.startMove (reserves : cluster.Reserves site)
    (single : cluster.overbooks site (.startMove move) = false) :
    (cluster.act (.startMove move)).Reserves site := by
  simp only [overbooks] at single
  change (Environment.startMove move cluster).2.Reserves site
  by_cases feasible : move.IsFeasible cluster.topology
  · rw [startMove_taken feasible] at single ⊢
    by_cases into : move.targetSite = site
    · subst into
      simp only [decide_true, Bool.true_and, Bool.and_true, Bool.not_eq_false',
        List.isEmpty_iff] at single
      obtain ⟨found, here, host, down⟩ := feasible.target
      have sole := cluster.copiesInto_reserved move
      rw [single, List.nil_append] at sole
      exact .taken sole (site?_reserved here) host down rfl
    · apply reserves.congr (.of_eq (copiesInto_reserved_of_ne into))
      intro found here _
      change (cluster.topology.assign move.targetSite move.partition).site? site = some found
      rw [Topology.site?_assign, if_neg (Ne.symm into), here]
  · rw [startMove_refused feasible]
    exact reserves

theorem Reserves.retireSite (reserves : cluster.Reserves site) (host : HostId) (other : SiteId) :
    (cluster.act (.retireSite host other)).Reserves site := by
  change (Environment.retireSite host other cluster).2.Reserves site
  rcases cluster.retireSite_cases host other with refused | retired
  · rw [refused]
    exact reserves
  · rw [retired]
    refine reserves.congr (.refl (cluster.copiesInto site)) ?_
    intro found here down
    change (cluster.topology.setUp other false).site? site = some found
    rw [Topology.site?_setUp, here]
    split
    · exact congrArg some (congrArg (Site.mk found.id found.host found.partition) down.symm)
    · rfl

theorem Reserves.endCopy (reserves : cluster.Reserves site) (index : Nat) :
    (cluster.act (.endCopy index)).Reserves site := by
  unfold act
  simp only
  split
  · next copy found =>
    have parts := copiesInto_ended found site
    split at parts
    · -- It was the only one.
      cases reserves with
      | free none => cases (none ▸ parts).eq_nil
      | taken sole => exact .free (List.cons.inj (List.perm_singleton.1 (sole ▸ parts))).2
    · next away =>
      apply reserves.congr parts
      intro found here _
      change ((cluster.topology.assign copy.move.targetSite copy.move.partition).setUp
        copy.move.targetSite true).site? site = some found
      rw [Topology.site?_setUp, if_neg (Ne.symm away), Topology.site?_assign,
        if_neg (Ne.symm away), here]
  · exact reserves

theorem Reserves.act (reserves : cluster.Reserves site) {action : ClusterAction}
    (single : cluster.overbooks site action = false) : (cluster.act action).Reserves site := by
  cases action with
  | startMove move => exact reserves.startMove single
  | retireSite host other => exact reserves.retireSite host other
  | reach now => exact reserves.congr (.refl _) fun _ here _ => here
  | endCopy index => exact reserves.endCopy index

theorem Reserves.after (reserves : cluster.Reserves site) {actions : List ClusterAction}
    (single : everOverbooks site cluster actions = false) :
    (cluster.after actions).Reserves site := by
  induction actions generalizing cluster with
  | nil => exact reserves
  | cons action actions ih =>
    obtain ⟨here, later⟩ := Bool.or_eq_false_iff.1 single
    exact ih (reserves.act here) later

/-- Whatever is asked of a cluster and in whatever order its copies end, a site is reserved for
the one copy into it, unless a second one was taken on before the first had ended. -/
theorem reserves_after {actions : List ClusterAction} (idle : cluster.copiesInto site = [])
    (single : everOverbooks site cluster actions = false) :
    (cluster.after actions).Reserves site :=
  Reserves.after (.free idle) single

/-- Two copies into a site one after the other, with another copy under way beside them. -/
theorem reserves_after_inTurn :
    let cluster := SimulatedCluster.new ⟨2, 2, 1⟩ 200 0
    let actions : List ClusterAction :=
      [.startMove ⟨201, 200, 4, 100, 3⟩, .startMove ⟨101, 100, 1, 200, 6⟩, .retireSite 100 3,
        .endCopy 0, .startMove ⟨202, 200, 5, 100, 3⟩, .retireSite 100 3,
        .startMove ⟨202, 200, 5, 100, 3⟩]
    cluster.copiesInto 3 = [] ∧ everOverbooks 3 cluster actions = false ∧
      ((cluster.after actions).copiesInto 3).map (·.move.partition) = [202] ∧
        (cluster.after actions).Reserves 3 := by
  intro cluster actions
  have idle : cluster.copiesInto 3 = [] := by decide
  have single : everOverbooks 3 cluster actions = false := by decide
  exact ⟨idle, single, by decide, reserves_after idle single⟩

/-- No copy under way keeps another one from its site. The cluster takes it on if it would do so
without the first, and from then on the site is mapped to the partition of the second. -/
theorem overbooks_of_isFeasible (busy : cluster.copiesInto move.targetSite ≠ [])
    (feasible : move.IsFeasible cluster.topology) :
    cluster.overbooks move.targetSite (.startMove move) = true ∧
      2 ≤ ((cluster.act (.startMove move)).copiesInto move.targetSite).length ∧
        (cluster.act (.startMove move)).topology.partitionOfSite move.targetSite =
          some move.partition := by
  have taken := startMove_taken feasible
  obtain ⟨found, here, _⟩ := feasible.target
  refine ⟨?_, ?_, ?_⟩
  · have waiting : (cluster.copiesInto move.targetSite).isEmpty = false := by
      rwa [Bool.eq_false_iff, ne_eq, List.isEmpty_iff]
    simp only [overbooks, taken, waiting, decide_true, Bool.not_false, Bool.and_self]
  · change 2 ≤ ((Environment.startMove move cluster).2.copiesInto move.targetSite).length
    rw [taken, copiesInto_reserved, List.length_append]
    exact Nat.succ_le_succ (List.length_pos_iff.2 busy)
  · change (Environment.startMove move cluster).2.topology.partitionOfSite move.targetSite = _
    rw [taken, Topology.partitionOfSite, site?_reserved here]
    rfl

/-- A second copy into a site is taken on under the first one, and gets its mapping. When the
first one ends, the site serves while the second copy is still under way. -/
theorem second_copy_taken :
    let cluster := SimulatedCluster.new ⟨2, 2, 1⟩ 200 0
    let first := cluster.act (.startMove ⟨201, 200, 4, 100, 3⟩)
    let second := first.act (.startMove ⟨202, 200, 5, 100, 3⟩)
    let ended := second.act (.endCopy 0)
    first.overbooks 3 (.startMove ⟨202, 200, 5, 100, 3⟩) = true ∧
      first.topology.partitionOfSite 3 = some 201 ∧
        second.topology.partitionOfSite 3 = some 202 ∧
          (second.copiesInto 3).map (·.move.partition) = [201, 202] ∧
            (ended.copiesInto 3).map (·.move.partition) = [202] ∧
              ended.topology.site? 3 = some ⟨3, 100, some 201, true⟩ := by
  decide

end SimulatedCluster

end Rebalance
