import Rebalance.Proofs.Cluster.Completion

/-!
How full the hosts are after a migration of which some moves were skipped. A host holds what the
wanted placement gives it, and the skipped partitions that stay on it, but not those that were
to come.
-/

namespace Rebalance

/-- Elements counted by one of two tests, as they are in a part of the list or not. -/
theorem countP_add_countP_part {β : Type} {all part : List β} (p inside outside : β → Bool)
    (distinct : all.Nodup) (distinctToo : part.Nodup) (within : part ⊆ all)
    (here : ∀ b ∈ part, p b = inside b) (there : ∀ b ∈ all, b ∉ part → p b = outside b) :
    all.countP p + part.countP outside = all.countP outside + part.countP inside := by
  classical
  have split : (part ++ all.filter fun b => decide (b ∉ part)).Perm all := by
    refine (List.perm_ext_iff_of_nodup ?_ distinct).2 fun b => ?_
    · refine List.nodup_append.2
        ⟨distinctToo, distinct.filter _, fun b member other kept same => ?_⟩
      exact of_decide_eq_true (List.mem_filter.1 kept).2 (same ▸ member)
    · rw [List.mem_append, List.mem_filter, decide_eq_true_eq]
      constructor
      · rintro (member | ⟨member, _⟩)
        · exact within member
        · exact member
      · intro member
        by_cases known : b ∈ part
        · exact .inl known
        · exact .inr ⟨member, known⟩
  have rest : (all.filter fun b => decide (b ∉ part)).countP p =
      (all.filter fun b => decide (b ∉ part)).countP outside := by
    refine List.countP_congr fun b member => ?_
    have known := List.mem_filter.1 member
    rw [there b known.1 (of_decide_eq_true known.2)]
  have own : part.countP p = part.countP inside :=
    List.countP_congr fun b member => by rw [here b member]
  rw [← split.countP_eq p, ← split.countP_eq outside, List.countP_append, List.countP_append,
    rest, own]
  omega

theorem Topology.mem_partitions_placement {topology : Topology} {partition : PartitionId} :
    partition ∈ topology.placement.partitions ↔
      ∃ host, topology.placement.hostOf partition = some host := by
  rw [← Placement.isSome_byPartition, topology.byPartition_placement, Option.isSome_iff_exists]

namespace Plan

variable {current target : Placement} {topology : Topology} {partition : PartitionId}

theorem nodup_skipped :
    ((make current target topology).skipped.map (·.partition)).Nodup :=
  (Placement.nodup_movesTo current target).sublist (accounts_make current target topology).passed

theorem mem_partitions_of_mem
    (dealt : partition ∈ (make current target topology).moves.map (·.partition) ∨
      partition ∈ (make current target topology).skipped.map (·.partition)) :
    partition ∈ current.partitions := by
  obtain ⟨_, here, _⟩ :=
    (differs_iff_mem current target topology).2 (dealt.imp id Or.inl)
  exact Placement.isSome_byPartition.1 (Option.isSome_of_eq_some here)

end Plan

namespace SimulatedCluster

variable {cluster : SimulatedCluster} {target : Placement} {plan : Plan} {ended : List Move}
variable {acks : List SiteId} {host : HostId}

section
variable (keyed : cluster.topology.IsKeyed)
variable (single : ∀ partition ∈ cluster.topology.placement.partitions,
  (cluster.topology.upSitesFor partition).length = 1)
variable (planned : plan = Plan.make cluster.topology.placement target cluster.topology)
variable (copied : ended.Perm plan.moves)
variable (acknowledged : ∀ move ∈ plan.moves, move.targetSite ∈ acks)
include keyed single planned copied acknowledged

/-- A partition that was placed stays where it is if it is skipped, and else goes where it is
wanted. -/
theorem byPartition_migrated {partition : PartitionId}
    (placed : partition ∈ cluster.topology.placement.partitions) :
    (cluster.migrated plan.moves ended acks).topology.placement.byPartition.get? partition =
      if partition ∈ plan.skipped.map (·.partition) then
        cluster.topology.placement.byPartition.get? partition
      else target.byPartition.get? partition := by
  obtain ⟨host, here⟩ := Topology.mem_partitions_placement.1 placed
  rw [Topology.byPartition_placement, Topology.byPartition_placement, here]
  exact hostOf_migrated_of_one keyed planned copied acknowledged here (single partition placed)

/-- A migration to a placement of the same partitions places these, and no others. -/
theorem partitions_migrated
    (whole : target.partitions = cluster.topology.placement.partitions) :
    (cluster.migrated plan.moves ended acks).topology.placement.partitions =
      cluster.topology.placement.partitions := by
  apply IdSet.ext
  intro partition
  by_cases placed : partition ∈ cluster.topology.placement.partitions
  · refine iff_of_true ?_ placed
    rw [← Placement.isSome_byPartition,
      byPartition_migrated keyed single planned copied acknowledged placed]
    split
    · exact Placement.isSome_byPartition.2 placed
    · exact Placement.isSome_byPartition.2 (whole ▸ placed)
  · refine iff_of_false ?_ placed
    have kept : partition ∉ plan.moves.map (·.partition) := fun moved =>
      placed (Plan.mem_partitions_of_mem (.inl (planned ▸ moved)))
    have joint : Plan.IsJoint cluster.topology plan.moves :=
      planned ▸ Plan.isJoint_make keyed cluster.topology.placement target
    rw [Topology.mem_partitions_placement,
      hostOf_migrated_of_kept keyed joint copied acknowledged kept]
    exact fun found => placed (Topology.mem_partitions_placement.2 found)

/-- A host holds what the wanted placement gives it, with the skipped partitions that stay on it
and without those that were to come. -/
theorem size_migrated {held : IdSet}
    (whole : target.partitions = cluster.topology.placement.partitions)
    (here : (cluster.migrated plan.moves ended acks).topology.placement.partitionsOn host =
      some held) :
    held.size + plan.skipped.countP (fun skip => skip.targetHost == some host) =
      target.partitions.toList.countP
          (fun partition => target.byPartition.get? partition == some host) +
        plan.skipped.countP fun skip =>
          cluster.topology.placement.hostOf skip.partition == some host := by
  have counted : _ + (plan.skipped.map (·.partition)).countP _ =
      _ + (plan.skipped.map (·.partition)).countP _ :=
    countP_add_countP_part
      (fun partition => (cluster.migrated plan.moves ended
        acks).topology.placement.byPartition.get? partition == some host)
      (fun partition => cluster.topology.placement.hostOf partition == some host)
      (fun partition => target.byPartition.get? partition == some host)
      cluster.topology.placement.partitions.nodup (planned ▸ Plan.nodup_skipped) ?_ ?_ ?_
  · have wanted : plan.skipped.countP (fun skip => skip.targetHost == some host) =
        plan.skipped.countP
          ((fun partition => target.byPartition.get? partition == some host) ∘ (·.partition)) := by
      refine List.countP_congr fun skip member => ?_
      subst planned
      rw [Function.comp_apply, Plan.wanted_of_mem_skipped member]
    rw [List.countP_map, List.countP_map] at counted
    rw [(Topology.isSingle_placement _).size_partitionsOn here,
      partitions_migrated keyed single planned copied acknowledged whole, whole, wanted]
    exact counted
  · intro partition skipped
    exact Plan.mem_partitions_of_mem (.inr (planned ▸ skipped))
  · intro partition skipped
    have placed : partition ∈ cluster.topology.placement.partitions :=
      Plan.mem_partitions_of_mem (.inr (planned ▸ skipped))
    rw [byPartition_migrated keyed single planned copied acknowledged placed, if_pos skipped,
      Topology.byPartition_placement]
  · intro partition placed unskipped
    rw [byPartition_migrated keyed single planned copied acknowledged placed, if_neg unskipped]

end

/-- Where each partition has one up site and the wanted placement keeps to the limit, a host
exceeds it after a migration by no more than the skipped partitions that stay on it, less those
that were to come to it. So the limit holds if no host keeps more of them than were to come. -/
theorem maxLoad_migrated_le (keyed : cluster.topology.IsKeyed)
    (single : ∀ partition ∈ cluster.topology.placement.partitions,
      (cluster.topology.upSitesFor partition).length = 1)
    (target : Placement) (limit : Nat) :
    let plan := Plan.make cluster.topology.placement target cluster.topology
    let after := (cluster.migrated plan.moves ended acks).topology
    let due (host : HostId) := plan.skipped.countP fun skip => skip.targetHost == some host
    let stuck (host : HostId) := plan.skipped.countP fun skip =>
      cluster.topology.placement.hostOf skip.partition == some host
    target.partitions = cluster.topology.placement.partitions → target.maxLoad ≤ limit →
      ended.Perm plan.moves → (∀ move ∈ plan.moves, move.targetSite ∈ acks) →
        (∀ host held, after.placement.partitionsOn host = some held →
          held.size + due host ≤ limit + stuck host) ∧
        ((∀ host, stuck host ≤ due host) → after.placement.maxLoad ≤ limit) := by
  intro plan after due stuck whole fits copied acknowledged
  have bound (host : HostId) (held : IdSet)
      (here : after.placement.partitionsOn host = some held) :
      held.size + due host ≤ limit + stuck host := by
    have given := Placement.countP_byPartition_le (Placement.maxLoad_le_iff.1 fits) host
    rw [size_migrated keyed single rfl copied acknowledged whole here]
    exact Nat.add_le_add_right given _
  refine ⟨bound, fun balanced => Placement.maxLoad_le_iff.2 fun host held here => ?_⟩
  have most := bound host held here
  have even := balanced host
  omega

/-- Two full hosts are to exchange their partitions, and only the second has a spare site. -/
theorem maxLoad_migrated_le_exchange :
    let cluster : SimulatedCluster :=
      { topology := .new [100, 200]
          [⟨1, 100, some 101, true⟩, ⟨2, 200, some 201, true⟩, ⟨3, 200, none, false⟩]
        copyDelay := 0, clock := 0 }
    let target : Placement := .ofPairs [(100, 201), (200, 101)]
    let plan := Plan.make cluster.topology.placement target cluster.topology
    let after := (cluster.migrated plan.moves plan.moves [3]).topology
    let due (host : HostId) := plan.skipped.countP fun skip => skip.targetHost == some host
    let stuck (host : HostId) := plan.skipped.countP fun skip =>
      cluster.topology.placement.hostOf skip.partition == some host
    (∀ partition ∈ cluster.topology.placement.partitions,
        (cluster.topology.upSitesFor partition).length = 1) ∧
      target.partitions = cluster.topology.placement.partitions ∧ target.maxLoad ≤ 1 ∧
        (∀ move ∈ plan.moves, move.targetSite ∈ [3]) ∧
          (∀ host held, after.placement.partitionsOn host = some held →
            held.size + due host ≤ 1 + stuck host) ∧
          ((∀ host, stuck host ≤ due host) → after.placement.maxLoad ≤ 1) := by
  intro cluster target plan after due stuck
  have listed : ∀ partition ∈ cluster.topology.placement.partitions.toList,
      (cluster.topology.upSitesFor partition).length = 1 := by decide +kernel
  have single : ∀ partition ∈ cluster.topology.placement.partitions,
      (cluster.topology.upSitesFor partition).length = 1 :=
    fun partition member => listed partition (IdSet.mem_def.1 member)
  have whole : target.partitions = cluster.topology.placement.partitions := by decide +kernel
  have fits : target.maxLoad ≤ 1 := by decide +kernel
  have acknowledged : ∀ move ∈ plan.moves, move.targetSite ∈ [3] := by decide +kernel
  exact ⟨single, whole, fits, acknowledged, maxLoad_migrated_le (Topology.isKeyed_new _ _) single
    target 1 whole fits (.refl _) acknowledged⟩

/-- In that exchange host 200 ends with two partitions, though both placements give one to each
host. -/
theorem maxLoad_migrated_exceeds :
    let cluster : SimulatedCluster :=
      { topology := .new [100, 200]
          [⟨1, 100, some 101, true⟩, ⟨2, 200, some 201, true⟩, ⟨3, 200, none, false⟩]
        copyDelay := 0, clock := 0 }
    let target : Placement := .ofPairs [(100, 201), (200, 101)]
    let plan := Plan.make cluster.topology.placement target cluster.topology
    let after := (cluster.migrated plan.moves plan.moves (plan.moves.map (·.targetSite))).topology
    (∀ partition ∈ cluster.topology.placement.partitions.toList,
        (cluster.topology.upSitesFor partition).length = 1) ∧
      cluster.topology.placement.maxLoad = 1 ∧
        target.partitions = cluster.topology.placement.partitions ∧ target.maxLoad = 1 ∧
          plan.moves = [⟨101, 100, 1, 200, 3⟩] ∧ after.placement.maxLoad = 2 := by
  decide +kernel

end SimulatedCluster

end Rebalance
