import Mathlib.Tactic.Ring
import Rebalance.Proofs.Placement.Bound
import Rebalance.Proofs.Schedule.Time

/-!
The estimated time of a sample in closed form, in exact arithmetic: what each group costs under
a placement, and how the costs of all groups are put together. Neither numbers for hosts and
partitions nor schedules are left in it.
-/

namespace Rebalance

namespace Placement

/-- Whether an initiator reaches a partition remotely: the partition is not placed, the
initiator is no host of the placement, or another host holds the partition. -/
def isRemote (placement : Placement) (initiator : HostId) (partition : PartitionId) : Bool :=
  match placement.byPartition.get? partition with
  | none => true
  | some host => !placement.hostIds.contains initiator || host != initiator

def partitionsOff (placement : Placement) (host : HostId) : Finset PartitionId :=
  placement.partitions.toList.toFinset.filter fun partition =>
    placement.byPartition.get? partition ≠ some host

/-- A host that holds a partition is a host of the placement, so that only the host of the
partition matters. -/
theorem isAway_eq_isRemote (placement : Placement) (initiator : HostId)
    (partition : PartitionId) :
    placement.isAway initiator partition = placement.isRemote initiator partition := by
  unfold isAway isRemote
  cases placed : placement.byPartition.get? partition with
  | none => rfl
  | some host =>
    have known : placement.hostIds.contains host = true :=
      List.contains_iff_mem.2 (mem_hostIds_of_mem_pairs (mem_pairs_of_byPartition placed))
    by_cases here : host = initiator
    · subst here
      simp [known]
    · simp [bne, here]

theorem mem_partitionsOff {placement : Placement} {host : HostId} {partition : PartitionId} :
    partition ∈ placement.partitionsOff host ↔
      partition ∈ placement.partitions.toList.filter (placement.isAway host) := by
  simp [partitionsOff, isAway]

end Placement

variable {K : Type} [ExactField K]

namespace Group

/-- What a group costs under a placement: each transaction its near latency, and the penalty
where its partition is remote. One on several partitions pays the largest penalty among the
partitions elsewhere. -/
def charge (placement : Placement) (group : Group) : K :=
  match group.latency with
  | none => 0
  | some latency =>
    let n : K := group.transactions
    let near : K := latency.near.ns
    let penalty (partition : PartitionId) : K := (latency.penalty partition).ns
    match group.key.scope with
    | .single partition =>
      if placement.isRemote group.key.host partition then n * near + n * penalty partition
      else n * near
    | .every =>
      n * near +
        largestOn (placement.partitionsOff group.key.host) fun partition => n * penalty partition

theorem charge_nonneg (placement : Placement) (group : Group) :
    (0 : K) ≤ group.charge placement := by
  have product (m n : Nat) : (0 : K) ≤ (m : K) * n := mul_nonneg m.cast_nonneg n.cast_nonneg
  unfold charge
  cases group.latency with
  | none => exact le_rfl
  | some latency =>
    cases group.key.scope with
    | single partition =>
      dsimp only
      split
      · exact add_nonneg (product _ _) (product _ _)
      · exact product _ _
    | every => exact add_nonneg (product _ _) (largestOn_nonneg _ _)

/-- The dearest of the partitions that are away is the dearest of those elsewhere. -/
theorem largest_awayCost (placement : Placement) (group : Group) (latency : GroupLatency) :
    Scalar.largest ((placement.partitions.toList.filter
        (placement.isAway group.key.host)).map (group.awayCost latency)) =
      largestOn (placement.partitionsOff group.key.host) fun partition =>
        (group.transactions : K) * (latency.penalty partition).ns := by
  refine eq_of_forall_ge_iff fun bound => ?_
  rw [Scalar.largest_le_iff, largestOn_le_iff]
  refine and_congr_right fun _ => ?_
  constructor
  · intro below partition off
    exact below _ (List.mem_map_of_mem (Placement.mem_partitionsOff.1 off))
  · intro below cost listed
    obtain ⟨partition, away, rfl⟩ := List.mem_map.1 listed
    exact below partition (Placement.mem_partitionsOff.2 away)

/-- The costs that a model gives to groups are these. -/
theorem costUnder_eq_charge (placement : Placement) (group : Group) :
    (group.costUnder placement : K) = group.charge placement := by
  unfold costUnder charge
  cases group.latency with
  | none =>
    have free : Scalar.largest (placement.partitions.toList.map fun _ => (0 : K)) = 0 := by
      refine le_antisymm (Scalar.largest_le_iff.2 ⟨le_rfl, ?_⟩) (Scalar.largest_nonneg _)
      simp
    simp only [Scalar.zero_eq, free, add_zero]
  | some latency =>
    cases group.key.scope with
    | single partition =>
      simp only [Placement.isAway_eq_isRemote]
      rfl
    | every =>
      simp only [largest_awayCost]
      rfl

end Group

theorem Sample.singleShare_eq (sample : Sample) :
    (sample.singleShare : K) =
      (sample.groups.toList.countP (·.key.isSingle) : K) / sample.groups.size := by
  have singles : sample.singleIds.length = sample.groups.toList.countP (·.key.isSingle) := by
    rw [List.countP_eq_length_filter, ← List.length_map (fun _ : Group => ()),
      ← sample.map_idsWhere (·.key.isSingle) (fun _ => ()) (), List.length_map,
      singleIds, sample.listed_single]
  unfold singleShare
  rw [singles]
  split
  · next empty =>
    have none : sample.groups.size = 0 := by simpa [isEmpty] using empty
    rw [none, Nat.cast_zero, div_zero, Scalar.zero_eq]
  · rfl

theorem Sample.costById_charge (sample : Sample) (placement : Placement) (id : GroupId) :
    ((sample.groups.map (·.costUnder placement)).getD id Scalar.zero : K) =
      sample.costById (·.charge placement) id := by
  rw [Array.getD_eq_getD_getElem?, Array.getElem?_map, Scalar.zero_eq]
  simp only [Group.costUnder_eq_charge]
  rfl

/-- The times of both schedules, weighed by the share of single-partition groups. -/
theorem estimatedTime_eq (sample : Sample) (placement : Placement) :
    let cost (group : Group) : K := group.charge placement
    (estimatedTime sample placement : K) =
      sample.singleShare * (sample.busiestCost cost + sample.multiCost cost) +
        (1 - sample.singleShare) * sample.totalCost cost := by
  intro cost
  have above : ∀ group ∈ sample.groups.toList, 0 ≤ cost group :=
    fun group _ => group.charge_nonneg placement
  have known : ∀ entry ∈ placement.pairs, entry.1 ∈ placement.hostIds.union placement.hostIds :=
    fun entry listed => IdSet.mem_union.2 (.inl (Placement.mem_hostIds_of_mem_pairs listed))
  have weighed : (estimatedTime sample placement : K) = _ := Model.objective_assignmentOf rfl known
  rw [weighed]
  simp only [Sample.costById_charge]
  rw [Schedule.time_best, Schedule.time_worst above, Scalar.one_eq]

/-- The estimate weighs the fastest schedule, in which single-partition groups wait for the
busiest partition only, against the slowest, in which every group waits for every other. -/
theorem estimatedTime_closedForm (sample : Sample) (placement : Placement) :
    let cost (group : Group) : K := group.charge placement
    let w : K := (sample.groups.toList.countP (·.key.isSingle) : K) / sample.groups.size
    let M := sample.busiestCost cost
    let S := sample.multiCost cost
    let A := sample.totalCost cost
    (estimatedTime sample placement : K) = w * (M + S) + (1 - w) * A ∧
      M + S ≤ estimatedTime sample placement ∧ estimatedTime sample placement ≤ A := by
  intro cost w M S A
  have share : sample.singleShare = w := sample.singleShare_eq
  have value : (estimatedTime sample placement : K) = w * (M + S) + (1 - w) * A :=
    share ▸ estimatedTime_eq sample placement
  have below : M + S ≤ A :=
    Sample.busiestCost_add_multiCost_le fun group _ => group.charge_nonneg placement
  have nonneg : 0 ≤ w := share ▸ sample.singleShare_nonneg
  have atMostOne : w ≤ 1 := share ▸ sample.singleShare_le_one
  refine ⟨value, ?_, ?_⟩
  · calc M + S = w * (M + S) + (1 - w) * (M + S) := by ring
      _ ≤ w * (M + S) + (1 - w) * A :=
        add_le_add_right (mul_le_mul_of_nonneg_left below (sub_nonneg.2 atMostOne)) _
      _ = estimatedTime sample placement := value.symm
  · calc estimatedTime sample placement = w * (M + S) + (1 - w) * A := value
      _ ≤ w * A + (1 - w) * A := add_le_add_left (mul_le_mul_of_nonneg_left below nonneg) _
      _ = A := by ring

end Rebalance
