import Rebalance.Proofs.Cluster.Layout
import Rebalance.Proofs.Cluster.Simulated
import Rebalance.Proofs.Cluster.Overlay
import Rebalance.Proofs.Migration.Acknowledgements
import Rebalance.Proofs.Migration.Allocation

/-!
What a migration leaves behind, on any topology. The target site of each move has taken the
place of its source, so that a partition with one up site is where it was wanted; a partition
with several is where the lowest-numbered of those left is.
-/

namespace Rebalance

namespace SimulatedCluster

/-- The cluster after a migration: the moves are handed over, their copies end in the order of
`ended`, the sites of `acks` are acknowledged, and the sources are retired. -/
def migrated (cluster : SimulatedCluster) (moves ended : List Move) (acks : List SiteId) :
    SimulatedCluster :=
  let launched := Run.dispatch {} moves cluster
  ((launched.1.after acks).retireSources (ended.foldl finish launched.2)).2

variable {before : Topology} {cluster : SimulatedCluster} {started ended moves : List Move}
variable {retired : List SiteId} {acks : List SiteId}

theorem overlay_dispatch (overlay : Overlay before cluster.topology started [] [])
    (joint : Plan.IsJoint before (started ++ moves)) (run : Run) :
    Run.accepted moves cluster = moves ∧
      Overlay before (Run.dispatch run moves cluster).2.topology (started ++ moves) [] [] := by
  induction moves generalizing started cluster run with
  | nil =>
    rw [List.append_nil]
    exact ⟨rfl, overlay⟩
  | cons move moves ih =>
    rw [List.append_cons] at joint ⊢
    have first := joint.sublist (List.sublist_append_left _ _)
    have taken : Environment.startMove move cluster = (true, cluster.reserved move) := by
      simp only [Environment.startMove, startMove_of_isFeasible (overlay.isFeasible first)]
    have reserved : Overlay before (cluster.reserved move).topology (started ++ [move]) [] [] :=
      overlay.start first fun _ member => absurd member List.not_mem_nil
    rw [Run.dispatch_cons, Run.accepted]
    simp only [taken, if_true]
    obtain ⟨accepted, later⟩ := ih reserved joint
      { run with outstanding := run.outstanding.insert move.targetSite move }
    exact ⟨congrArg (move :: ·) accepted, later⟩

theorem overlay_finish (overlay : Overlay before cluster.topology started ended retired)
    (joint : Plan.IsJoint before started) (known : ∀ move ∈ moves, move ∈ started) :
    Overlay before (moves.foldl finish cluster).topology started (moves.reverse ++ ended)
      retired := by
  induction moves generalizing cluster ended with
  | nil => exact overlay
  | cons move moves ih =>
    rw [List.reverse_cons, List.append_assoc]
    exact ih (overlay.finish joint (known move List.mem_cons_self))
      fun other later => known other (List.mem_cons_of_mem _ later)

theorem overlay_retire (overlay : Overlay before cluster.topology started ended retired)
    (joint : Plan.IsJoint before started) (sources : List (HostId × SiteId)) (count : Nat)
    (known : ∀ source ∈ sources, ∃ move ∈ started,
      move.sourceHost = source.1 ∧ move.sourceSite = source.2) :
    Overlay before (sources.foldl Run.retireSource (count, cluster)).2.topology started ended
      (retired ++ sources.map (·.2)) := by
  induction sources generalizing cluster retired count with
  | nil =>
    rw [List.map_nil, List.append_nil]
    exact overlay
  | cons source sources ih =>
    obtain ⟨move, member, host, site⟩ := known source List.mem_cons_self
    have away : ∀ other ∈ started, other.targetSite ≠ source.2 :=
      fun other memberToo => site ▸ joint.target_ne_source memberToo member
    obtain ⟨found, here, on, _⟩ := (joint.feasible move member).source
    rw [site] at here
    have shown := overlay.other _ away
    rw [here] at shown
    have taken : Environment.retireSite source.1 source.2 cluster =
        (true, cluster.retired source.2) := by
      simp only [Environment.retireSite, retire_of_known shown (on.trans host)]
    have down : Overlay before (cluster.retired source.2).topology started ended
        (retired ++ [source.2]) := overlay.retire away
    have rest := ih down (count + 1) fun other later =>
      known other (List.mem_cons_of_mem _ later)
    rw [List.append_assoc] at rest
    rw [List.foldl_cons, Run.retireSource, taken]
    exact rest

/-- Once every copy has ended and is acknowledged, in whatever order, the migration is
complete. -/
theorem overlay_migrated (joint : Plan.IsJoint cluster.topology moves)
    (copied : ended.Perm moves) (acknowledged : ∀ move ∈ moves, move.targetSite ∈ acks) :
    ∃ retired, Overlay cluster.topology (cluster.migrated moves ended acks).topology moves moves
      retired ∧ Overlay.IsComplete moves moves retired := by
  obtain ⟨accepted, launched⟩ := overlay_dispatch (.refl cluster.topology) joint {}
  have books := (Run.books_dispatch joint.targets cluster).after acks
  rw [accepted] at books
  have completed (move : Move) :
      move ∈ ((Run.dispatch {} moves cluster).1.after acks).completed ↔ move ∈ moves :=
    (books.completed move).trans (and_iff_left_of_imp (acknowledged move))
  have finished := overlay_finish launched joint fun move => copied.subset (a := move)
  have same (move : Move) : move ∈ ended.reverse ++ [] ↔ move ∈ moves := by
    rw [List.append_nil, List.mem_reverse, copied.mem_iff]
  have done := finished.congr_ended same
  refine ⟨_, overlay_retire done joint _ 0 ?_, fun _ => Iff.rfl, fun site => ?_⟩
  · intro source listed
    obtain ⟨move, member, same⟩ := Run.mem_sources.1 listed
    exact ⟨move, (completed move).1 member, same⟩
  · rw [List.nil_append, List.mem_map]
    constructor
    · intro listed
      obtain ⟨source, member, rfl⟩ := listed
      obtain ⟨move, memberToo, _, same⟩ := Run.mem_sources.1 member
      exact ⟨move, (completed move).1 memberToo, same⟩
    · intro found
      obtain ⟨move, member, same⟩ := found
      exact ⟨(move.sourceHost, site),
        Run.mem_sources.2 ⟨move, (completed move).2 member, rfl, same⟩, rfl⟩

end SimulatedCluster

namespace Overlay

variable {before after : Topology} {started ended : List Move} {retired : List SiteId}
variable {move : Move}

/-- A moved partition is on its target host exactly if no other site that was left to it has a
lower number than the target site. -/
theorem hostOf_moved_iff (overlay : Overlay before after started ended retired)
    (joint : Plan.IsJoint before started) (complete : IsComplete started ended retired)
    (keyed : before.IsKeyed) (member : move ∈ started)
    (unserved : ¬ Plan.ServedOn before move.targetHost move.partition) :
    after.placement.hostOf move.partition = some move.targetHost ↔
      ∀ site, before.Serves site move.partition →
        site = move.sourceSite ∨ move.targetSite < site := by
  have serves : ∀ site, after.Serves site move.partition ↔
      (before.Serves site move.partition ∧ site ≠ move.sourceSite) ∨ site = move.targetSite :=
    fun _ => overlay.serves_iff_of_replaced joint complete member
  have fresh (site : SiteId) (old : before.Serves site move.partition) : site ≠ move.targetSite :=
    fun same => joint.not_serves_target member _ (same ▸ old)
  rw [(overlay.keyed joint keyed).hostOf_placement_iff]
  constructor
  · intro placed
    obtain ⟨lowest, found, here, host, servesLowest, least⟩ := placed
    -- The lowest site is the target site, since no other one on the target host serves.
    have target : lowest = move.targetSite := by
      rcases (serves lowest).1 servesLowest with ⟨old, _⟩ | same
      · obtain ⟨known, there, up, held⟩ := old
        have away : ∀ other ∈ started, other.targetSite ≠ lowest := fun other memberToo same =>
          joint.not_serves_target memberToo move.partition (same ▸ ⟨known, there, up, held⟩)
        rw [overlay.other lowest away, there] at here
        cases here
        exact absurd ⟨lowest, known, there, host, up, held⟩ unserved
      · exact same
    intro site old
    by_cases source : site = move.sourceSite
    · exact .inl source
    · have above := least site ((serves site).2 (.inl ⟨old, source⟩))
      rw [target] at above
      exact .inr (Nat.lt_of_le_of_ne above (fresh site old).symm)
  · intro above
    obtain ⟨found, here, host, _⟩ := (joint.feasible move member).target
    have shown := overlay.target move member found here
    refine ⟨move.targetSite, _, shown, host, (serves _).2 (.inr rfl), fun other known => ?_⟩
    rcases (serves other).1 known with ⟨old, apart⟩ | same
    · exact Nat.le_of_lt ((above other old).resolve_left apart)
    · exact Nat.le_of_eq same.symm

end Overlay

theorem Topology.byPartition_placement (topology : Topology) (partition : PartitionId) :
    topology.placement.byPartition.get? partition = topology.placement.hostOf partition := by
  apply Option.ext
  intro host
  rw [topology.isSingle_placement.byPartition_eq_some_iff,
    topology.isSingle_placement.hostOf_eq_some_iff]

/-- A move is planned only for a partition that is not served on the wanted host. -/
theorem Plan.not_servedOn_of_mem {current target : Placement} {topology : Topology} {move : Move}
    (member : move ∈ (make current target topology).moves) :
    ¬ ServedOn topology move.targetHost move.partition := fun served =>
  (not_mem_of_servedOn (wanted_of_mem_moves member) served).1 (List.mem_map_of_mem member)

theorem Plan.ne_of_mem {current target : Placement} {topology : Topology} {move : Move}
    {home : HostId} (member : move ∈ (make current target topology).moves)
    (here : current.byPartition.get? move.partition = some home) : home ≠ move.targetHost := by
  rintro rfl
  obtain ⟨host, there, differs⟩ :=
    (differs_iff_mem current target topology).2 (.inl (List.mem_map_of_mem member))
  rw [wanted_of_mem_moves member, ← here] at differs
  exact differs there

/-- Where nothing is skipped, every partition that is placed is wanted somewhere. -/
theorem Plan.exists_wanted {current target : Placement} {topology : Topology}
    {partition : PartitionId} {home : HostId}
    (whole : (make current target topology).skipped = [])
    (here : current.byPartition.get? partition = some home) :
    ∃ goal, target.byPartition.get? partition = some goal := by
  cases wanted : target.byPartition.get? partition with
  | some goal => exact ⟨goal, rfl⟩
  | none =>
    have differs : current.Differs target partition :=
      ⟨home, here, wanted ▸ (Option.some_ne_none home).symm⟩
    obtain moved | skipped | ⟨_, goal, sought, _⟩ :=
      (differs_iff_mem current target topology).1 differs
    · obtain ⟨move, member, rfl⟩ := List.mem_map.1 moved
      exact ⟨move.targetHost, wanted ▸ wanted_of_mem_moves member⟩
    · rw [whole] at skipped
      cases skipped
    · exact ⟨goal, wanted ▸ sought⟩

/-- A partition with one up site is placed on any host that it is served on. -/
theorem Topology.IsKeyed.hostOf_of_servedOn {topology : Topology} (keyed : topology.IsKeyed)
    {partition : PartitionId} {host : HostId} (one : (topology.upSitesFor partition).length = 1)
    (served : Plan.ServedOn topology host partition) :
    topology.placement.hostOf partition = some host := by
  obtain ⟨site, found, here, on, up, held⟩ := served
  have serves : topology.Serves site partition := ⟨found, here, up, held⟩
  rw [keyed.hostOf_placement_of_unique here serves
    fun other servesToo => keyed.eq_of_upSites_eq_one one servesToo serves, on]

namespace SimulatedCluster

variable {cluster : SimulatedCluster} {target : Placement} {plan : Plan}
variable {partition : PartitionId} {host : HostId} {ended : List Move} {acks : List SiteId}

/-- After a migration, a partition that it did not move is where it was. -/
theorem hostOf_migrated_of_kept (keyed : cluster.topology.IsKeyed)
    (joint : Plan.IsJoint cluster.topology plan.moves) (copied : ended.Perm plan.moves)
    (acknowledged : ∀ move ∈ plan.moves, move.targetSite ∈ acks)
    (kept : partition ∉ plan.moves.map (·.partition)) :
    (cluster.migrated plan.moves ended acks).topology.placement.hostOf partition =
      cluster.topology.placement.hostOf partition := by
  obtain ⟨retired, overlay, complete⟩ := overlay_migrated joint copied acknowledged
  exact overlay.hostOf_kept joint complete keyed fun move member same =>
    kept (List.mem_map.2 ⟨move, member, same⟩)

section
variable (keyed : cluster.topology.IsKeyed)
variable (planned : plan = Plan.make cluster.topology.placement target cluster.topology)
variable (copied : ended.Perm plan.moves)
variable (acknowledged : ∀ move ∈ plan.moves, move.targetSite ∈ acks)
include keyed planned copied acknowledged

/-- After a migration that was planned, a moved partition is on its wanted host exactly if no
other site that was left to it has a lower number than the site it was copied into. -/
theorem hostOf_migrated_of_moved {move : Move} (member : move ∈ plan.moves) :
    (cluster.migrated plan.moves ended acks).topology.placement.hostOf move.partition =
        some move.targetHost ↔
      ∀ site, cluster.topology.Serves site move.partition →
        site = move.sourceSite ∨ move.targetSite < site := by
  subst planned
  have joint := Plan.isJoint_make keyed cluster.topology.placement target
  obtain ⟨retired, overlay, complete⟩ := overlay_migrated joint copied acknowledged
  exact overlay.hostOf_moved_iff joint complete keyed member (Plan.not_servedOn_of_mem member)

/-- A partition with one up site stays where it is if it is skipped, and else goes where it is
wanted. -/
theorem hostOf_migrated_of_one (placed : cluster.topology.placement.hostOf partition = some host)
    (one : (cluster.topology.upSitesFor partition).length = 1) :
    (cluster.migrated plan.moves ended acks).topology.placement.hostOf partition =
      if partition ∈ plan.skipped.map (·.partition) then some host
      else target.byPartition.get? partition := by
  have joint : Plan.IsJoint cluster.topology plan.moves :=
    planned ▸ Plan.isJoint_make keyed cluster.topology.placement target
  have current := (cluster.topology.byPartition_placement partition).trans placed
  have apart : (plan.moves.map (·.partition)).Disjoint (plan.skipped.map (·.partition)) :=
    planned ▸ Plan.disjoint_parts cluster.topology.placement target cluster.topology
  have stays (unmoved : partition ∉ plan.moves.map (·.partition)) :=
    (hostOf_migrated_of_kept keyed joint copied acknowledged unmoved).trans placed
  by_cases skipped : partition ∈ plan.skipped.map (·.partition)
  · rw [if_pos skipped]
    exact stays fun moved => apart moved skipped
  · rw [if_neg skipped]
    by_cases moved : partition ∈ plan.moves.map (·.partition)
    · obtain ⟨move, member, rfl⟩ := List.mem_map.1 moved
      have final := hostOf_migrated_of_moved keyed planned copied acknowledged member
      subst planned
      rw [Plan.wanted_of_mem_moves member]
      exact final.2 fun site serves =>
        .inl (keyed.eq_of_upSites_eq_one one serves (joint.serves_source member))
    · -- What differs and is neither moved nor skipped is served elsewhere, by a second up site.
      have same : target.byPartition.get? partition = some host := by
        by_contra differs
        subst planned
        have parts := (Plan.differs_iff_mem _ target cluster.topology).1 ⟨host, current, differs⟩
        obtain early | late | ⟨_, goal, wanted, served⟩ := parts
        · exact moved early
        · exact skipped late
        · rw [wanted, ← keyed.hostOf_of_servedOn one served, placed] at differs
          exact differs rfl
      exact (stays moved).trans same.symm

/-- A partition is on its wanted host exactly if it was there before, or was moved there and no
other site that was left to it has a lower number than the site it was copied into. -/
theorem hostOf_migrated_eq_goal_iff {home goal : HostId}
    (placed : cluster.topology.placement.hostOf partition = some home)
    (wanted : target.byPartition.get? partition = some goal) :
    (cluster.migrated plan.moves ended acks).topology.placement.hostOf partition = some goal ↔
      home = goal ∨ ∃ move ∈ plan.moves, move.partition = partition ∧
        ∀ site, cluster.topology.Serves site partition →
          site = move.sourceSite ∨ move.targetSite < site := by
  have joint : Plan.IsJoint cluster.topology plan.moves :=
    planned ▸ Plan.isJoint_make keyed cluster.topology.placement target
  by_cases moved : partition ∈ plan.moves.map (·.partition)
  · obtain ⟨move, member, rfl⟩ := List.mem_map.1 moved
    have final := hostOf_migrated_of_moved keyed planned copied acknowledged member
    have current := (cluster.topology.byPartition_placement move.partition).trans placed
    have differs : home ≠ move.targetHost := Plan.ne_of_mem (planned ▸ member) current
    have same : goal = move.targetHost :=
      Option.some.inj (wanted.symm.trans (Plan.wanted_of_mem_moves (planned ▸ member)))
    rw [same, final]
    constructor
    · intro above
      exact .inr ⟨move, member, rfl, above⟩
    · rintro (here | ⟨other, memberToo, samePartition, above⟩)
      · exact absurd here differs
      · exact joint.eq_of_partition memberToo member samePartition ▸ above
  · rw [hostOf_migrated_of_kept keyed joint copied acknowledged moved, placed, Option.some.injEq]
    refine (or_iff_left ?_).symm
    rintro ⟨move, member, rfl, _⟩
    exact moved (List.mem_map_of_mem member)

end

/-- A migration that skips nothing brings a partition with one up site to its wanted host. One
with several is there afterwards exactly if it was there before, or was copied into a site whose
number is below those of all its up sites but the source. -/
theorem hostOf_migrated_iff (keyed : cluster.topology.IsKeyed) (target : Placement) :
    let plan := Plan.make cluster.topology.placement target cluster.topology
    let after := (cluster.migrated plan.moves ended acks).topology
    plan.skipped = [] → ended.Perm plan.moves →
      (∀ move ∈ plan.moves, move.targetSite ∈ acks) → ∀ partition home,
        cluster.topology.placement.hostOf partition = some home →
          ∃ goal, target.byPartition.get? partition = some goal ∧
            (after.placement.hostOf partition = some goal ↔
              home = goal ∨ ∃ move ∈ plan.moves, move.partition = partition ∧
                ∀ site, cluster.topology.Serves site partition →
                  site = move.sourceSite ∨ move.targetSite < site) ∧
            ((cluster.topology.upSitesFor partition).length = 1 →
              after.placement.hostOf partition = some goal) := by
  intro plan after whole copied acknowledged partition home placed
  obtain ⟨goal, wanted⟩ :=
    Plan.exists_wanted whole ((cluster.topology.byPartition_placement partition).trans placed)
  refine ⟨goal, wanted, ?_, fun one => ?_⟩
  · exact hostOf_migrated_eq_goal_iff keyed rfl copied acknowledged placed wanted
  · have final := hostOf_migrated_of_one keyed rfl copied acknowledged placed one
    rwa [whole, List.map_nil, if_neg List.not_mem_nil, wanted] at final

/-- Partition 101 is served on two hosts and is copied into a site between the two; partition
201, which has one up site, comes to the first host. -/
theorem hostOf_migrated_iff_between :
    let cluster : SimulatedCluster :=
      { topology := .new [100, 200, 300]
          [⟨1, 100, some 101, true⟩, ⟨2, 100, none, false⟩, ⟨3, 200, some 201, true⟩,
            ⟨4, 300, none, false⟩, ⟨5, 200, some 101, true⟩]
        copyDelay := 0, clock := 0 }
    let target : Placement := .ofPairs [(100, 201), (300, 101)]
    let plan := Plan.make cluster.topology.placement target cluster.topology
    let ended := plan.moves.reverse
    let acks := [9, 4, 2, 4]
    let after := (cluster.migrated plan.moves ended acks).topology
    plan.skipped = [] ∧ ended.Perm plan.moves ∧ (∀ move ∈ plan.moves, move.targetSite ∈ acks) ∧
      cluster.topology.placement.hostOf 101 = some 100 ∧
      ∃ goal, target.byPartition.get? 101 = some goal ∧
        (after.placement.hostOf 101 = some goal ↔
          100 = goal ∨ ∃ move ∈ plan.moves, move.partition = 101 ∧
            ∀ site, cluster.topology.Serves site 101 →
              site = move.sourceSite ∨ move.targetSite < site) ∧
        ((cluster.topology.upSitesFor 101).length = 1 →
          after.placement.hostOf 101 = some goal) := by
  intro cluster target plan ended acks after
  have whole : plan.skipped = [] := by decide +kernel
  have copied : ended.Perm plan.moves := List.reverse_perm _
  have acknowledged : ∀ move ∈ plan.moves, move.targetSite ∈ acks := by decide +kernel
  have placed : cluster.topology.placement.hostOf 101 = some 100 := by decide +kernel
  exact ⟨whole, copied, acknowledged, placed, hostOf_migrated_iff (Topology.isKeyed_new _ _)
    target whole copied acknowledged 101 100 placed⟩

/-- A copy that was given up has come up on the second host before partition 101 is moved from
the first host to the third. Nothing is skipped, and once the migration is complete the
partition is on the second host. -/
theorem hostOf_migrated_lateCopy :
    let cluster : SimulatedCluster :=
      { topology := .new [100, 200, 300]
          [⟨1, 100, some 101, true⟩, ⟨2, 100, none, false⟩, ⟨3, 200, some 201, true⟩,
            ⟨4, 200, some 101, true⟩, ⟨5, 300, some 301, true⟩, ⟨6, 300, none, false⟩]
        copyDelay := 0, clock := 0 }
    let target : Placement := .ofPairs [(200, 201), (300, 101), (300, 301)]
    let plan := Plan.make cluster.topology.placement target cluster.topology
    let after := (cluster.migrated plan.moves plan.moves (plan.moves.map (·.targetSite))).topology
    target.partitions = cluster.topology.placement.partitions ∧ plan.skipped = [] ∧
      plan.moves = [⟨101, 100, 1, 300, 6⟩] ∧ target.hostOf 101 = some 300 ∧
        after.placement.hostOf 101 = some 200 := by
  decide +kernel

end SimulatedCluster

end Rebalance
