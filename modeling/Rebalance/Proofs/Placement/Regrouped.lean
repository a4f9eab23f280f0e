import Rebalance.Proofs.Placement.ClosedForm

/-!
What an estimate goes by: of each group its key, its transactions and its derived latencies, and
of the groups neither their order nor their numbers.
-/

namespace Rebalance

def Group.core (group : Group) : Group :=
  { key := group.key, transactions := group.transactions, latency := group.latency }

namespace Sample

def cores (sample : Sample) : List Group := sample.groups.toList.map Group.core

variable {K : Type} [ExactField K]

theorem sum_charge_filter (sample : Sample) (placement : Placement) (p : GroupKey → Bool) :
    ((sample.groups.toList.filter (p ·.key)).map fun group => (group.charge placement : K)).sum =
      ((sample.cores.filter (p ·.key)).map fun group => (group.charge placement : K)).sum := by
  unfold cores
  rw [List.filter_map, List.map_map]
  rfl

variable {first second : Sample}

theorem sum_charge_eq (same : first.cores.Perm second.cores) (placement : Placement)
    (p : GroupKey → Bool) :
    ((first.groups.toList.filter (p ·.key)).map fun group => (group.charge placement : K)).sum =
      ((second.groups.toList.filter (p ·.key)).map
        fun group => (group.charge placement : K)).sum := by
  rw [sum_charge_filter, sum_charge_filter]
  exact ((same.filter _).map _).sum_eq

theorem singleShare_eq_of_perm (same : first.cores.Perm second.cores) :
    (first.singleShare : K) = second.singleShare := by
  have size (sample : Sample) : sample.groups.size = sample.cores.length := by
    rw [cores, List.length_map, Array.length_toList]
  have singles (sample : Sample) : sample.groups.toList.countP (·.key.isSingle) =
      sample.cores.countP (·.key.isSingle) := by
    rw [cores, List.countP_map]
    rfl
  rw [singleShare_eq, singleShare_eq, size, size, singles, singles, same.length_eq,
    same.countP_eq]

theorem singlePartitions_eq_of_perm (same : first.cores.Perm second.cores) :
    first.singlePartitions = second.singlePartitions := by
  have told (sample : Sample) : sample.singlePartitions =
      (sample.cores.filterMap (·.key.partition?)).toFinset := by
    rw [singlePartitions, cores, List.filterMap_map]
    rfl
  rw [told, told]
  exact List.toFinset_eq_of_perm _ _ (same.filterMap _)

theorem busiestCost_eq_of_perm (same : first.cores.Perm second.cores) (placement : Placement) :
    first.busiestCost (fun group => (group.charge placement : K)) =
      second.busiestCost fun group => group.charge placement := by
  have on (partition : PartitionId) :=
    sum_charge_eq (K := K) same placement fun key => key.partition? = some partition
  unfold busiestCost
  rw [singlePartitions_eq_of_perm same]
  exact congrArg _ (funext on)

theorem multiCost_eq_of_perm (same : first.cores.Perm second.cores) (placement : Placement) :
    first.multiCost (fun group => (group.charge placement : K)) =
      second.multiCost fun group => group.charge placement :=
  sum_charge_eq same placement fun key => !key.isSingle

theorem totalCost_eq_of_perm (same : first.cores.Perm second.cores) (placement : Placement) :
    first.totalCost (fun group => (group.charge placement : K)) =
      second.totalCost fun group => group.charge placement := by
  have every := sum_charge_eq (K := K) same placement fun _ => true
  simpa only [totalCost, List.filter_true] using every

end Sample

/-- Samples with the same cores in some order have the same estimates. -/
theorem estimatedTime_eq_of_perm {K : Type} [ExactField K] {first second : Sample}
    (same : first.cores.Perm second.cores) (placement : Placement) :
    (estimatedTime first placement : K) = estimatedTime second placement := by
  rw [estimatedTime_eq, estimatedTime_eq, Sample.singleShare_eq_of_perm same,
    Sample.busiestCost_eq_of_perm same, Sample.multiCost_eq_of_perm same,
    Sample.totalCost_eq_of_perm same]

end Rebalance
