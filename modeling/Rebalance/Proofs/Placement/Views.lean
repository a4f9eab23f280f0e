import Mathlib.Data.List.Perm.Subperm
import Rebalance.Placement.Basic

/-!
The views of a placement. Its pairs of host and partition are the relation itself, and the
partition view names one host of each partition: where no partition sits on two hosts, the
two say the same.
-/

namespace Rebalance.Placement

def IsSingle (placement : Placement) : Prop :=
  ∀ entry ∈ placement.pairs, ∀ other ∈ placement.pairs, entry.2 = other.2 → entry = other

theorem mem_pairs {placement : Placement} {host : HostId} {partition : PartitionId} :
    (host, partition) ∈ placement.pairs ↔
      ∃ held, placement.partitionsOn host = some held ∧ partition ∈ held := by
  unfold pairs partitionsOn
  simp only [List.mem_flatMap, List.mem_map, Prod.mk.injEq, IdMap.get?_eq_some_iff]
  constructor
  · rintro ⟨⟨known, held⟩, listed, inside, member, rfl, rfl⟩
    exact ⟨held, listed, member⟩
  · rintro ⟨held, listed, member⟩
    exact ⟨(host, held), listed, partition, member, rfl, rfl⟩

theorem mem_partitions {placement : Placement} {partition : PartitionId} :
    partition ∈ placement.partitions ↔ ∃ host, (host, partition) ∈ placement.pairs := by
  unfold partitions
  rw [IdSet.mem_ofList, List.mem_map]
  constructor
  · rintro ⟨⟨host, found⟩, listed, rfl⟩
    exact ⟨host, listed⟩
  · rintro ⟨host, listed⟩
    exact ⟨(host, partition), listed, rfl⟩

theorem mem_hostIds {placement : Placement} {host : HostId} :
    host ∈ placement.hostIds ↔ ∃ held, placement.partitionsOn host = some held := by
  rw [hostIds, IdMap.mem_keys, IdMap.contains, Option.isSome_iff_exists]
  rfl

theorem mem_hostIds_of_mem_pairs {placement : Placement} {entry : HostId × PartitionId}
    (listed : entry ∈ placement.pairs) : entry.1 ∈ placement.hostIds := by
  obtain ⟨held, found, _⟩ := mem_pairs.1 (show (entry.1, entry.2) ∈ placement.pairs from listed)
  exact mem_hostIds.2 ⟨held, found⟩

theorem ext_of_mem {first second : Placement}
    (hosts : ∀ host, host ∈ first.hostIds ↔ host ∈ second.hostIds)
    (pairs : ∀ host partition, (host, partition) ∈ first.pairs ↔ (host, partition) ∈ second.pairs) :
    first = second := by
  have same : first.hosts = second.hosts := by
    apply IdMap.ext
    intro host
    have known := hosts host
    have held := pairs host
    simp only [mem_hostIds, mem_pairs] at known held
    change first.partitionsOn host = second.partitionsOn host
    cases here : first.partitionsOn host with
    | none =>
      cases there : second.partitionsOn host with
      | none => rfl
      | some partitions => simp [here, there] at known
    | some partitions =>
      cases there : second.partitionsOn host with
      | none => simp [here, there] at known
      | some others =>
        simp only [here, there, Option.some.injEq, exists_eq_left'] at held
        exact congrArg some (IdSet.ext held)
  cases first
  cases second
  exact congrArg Placement.mk same

@[simp] theorem pairs_empty : empty.pairs = [] := rfl

theorem partitionsOn_insert (placement : Placement) (host known : HostId)
    (partition : PartitionId) :
    (placement.insert host partition).partitionsOn known =
      if known = host then
        some ((((placement.partitionsOn host).map (IdSet.erase · partition)).getD
          IdSet.empty).insert partition)
      else (placement.partitionsOn known).map (IdSet.erase · partition) := by
  unfold insert partitionsOn
  rw [IdMap.get?_upsert, IdMap.get?_mapValues, IdMap.get?_mapValues]

theorem mem_pairs_insert {placement : Placement} {host known : HostId}
    {partition other : PartitionId} :
    (known, other) ∈ (placement.insert host partition).pairs ↔
      (known = host ∧ other = partition) ∨
        ((known, other) ∈ placement.pairs ∧ other ≠ partition) := by
  rw [mem_pairs, mem_pairs, partitionsOn_insert]
  by_cases here : known = host
  · subst here
    cases placement.partitionsOn known <;> simp
  · cases placement.partitionsOn known <;> simp [here]

theorem isSingle_empty : empty.IsSingle := fun _ listed => absurd listed List.not_mem_nil

theorem IsSingle.insert {placement : Placement} (single : placement.IsSingle) (host : HostId)
    (partition : PartitionId) : (placement.insert host partition).IsSingle := by
  rintro ⟨known, first⟩ listed ⟨further, second⟩ listedToo same
  change first = second at same
  subst same
  rcases mem_pairs_insert.1 listed with ⟨rfl, rfl⟩ | ⟨old, differs⟩
  · rcases mem_pairs_insert.1 listedToo with ⟨rfl, _⟩ | ⟨_, differs⟩
    · rfl
    · exact absurd rfl differs
  · rcases mem_pairs_insert.1 listedToo with ⟨_, same⟩ | ⟨oldToo, _⟩
    · exact absurd same differs
    · exact single _ old _ oldToo rfl

theorem mem_pairs_of_byPartition {placement : Placement} {host : HostId}
    {partition : PartitionId} (found : placement.byPartition.get? partition = some host) :
    (host, partition) ∈ placement.pairs := by
  obtain ⟨⟨known, other⟩, listed, same⟩ := List.mem_map.1 (IdMap.mem_of_get?_ofList found)
  cases same
  exact listed

theorem isSome_byPartition {placement : Placement} {partition : PartitionId} :
    (placement.byPartition.get? partition).isSome ↔ partition ∈ placement.partitions := by
  unfold byPartition
  rw [IdMap.isSome_get?_ofList, mem_partitions]
  simp only [List.mem_map]
  constructor
  · rintro ⟨_, ⟨⟨host, found⟩, listed, rfl⟩, rfl⟩
    exact ⟨host, listed⟩
  · rintro ⟨host, listed⟩
    exact ⟨_, ⟨_, listed, rfl⟩, rfl⟩

theorem exists_byPartition {placement : Placement} {partition : PartitionId}
    (member : partition ∈ placement.partitions) :
    ∃ host, placement.byPartition.get? partition = some host :=
  Option.isSome_iff_exists.1 (isSome_byPartition.2 member)

theorem IsSingle.byPartition_eq_some_iff {placement : Placement} (single : placement.IsSingle)
    {host : HostId} {partition : PartitionId} :
    placement.byPartition.get? partition = some host ↔ (host, partition) ∈ placement.pairs := by
  refine ⟨mem_pairs_of_byPartition, fun listed => ?_⟩
  obtain ⟨known, found⟩ := exists_byPartition (mem_partitions.2 ⟨host, listed⟩)
  have same := single _ (mem_pairs_of_byPartition found) _ listed rfl
  rw [found, Option.some.injEq]
  exact congrArg Prod.fst same

theorem IsSingle.size_partitionsOn {placement : Placement} (single : placement.IsSingle)
    {host : HostId} {held : IdSet} (found : placement.partitionsOn host = some held) :
    held.size = placement.partitions.toList.countP fun partition =>
      placement.byPartition.get? partition == some host := by
  rw [List.countP_eq_length_filter, IdSet.size]
  apply List.Perm.length_eq
  refine (List.perm_ext_iff_of_nodup held.nodup (placement.partitions.nodup.filter _)).2
    fun partition => ?_
  rw [List.mem_filter, beq_iff_eq, single.byPartition_eq_some_iff, mem_pairs, found,
    ← IdSet.mem_def, ← IdSet.mem_def, mem_partitions]
  constructor
  · intro member
    exact ⟨⟨host, mem_pairs.2 ⟨held, found, member⟩⟩, held, rfl, member⟩
  · intro listed
    obtain ⟨_, held', same, member⟩ := listed
    cases same
    exact member

theorem countP_byPartition_eq_zero {placement : Placement} {host : HostId}
    (absent : placement.partitionsOn host = none) :
    (placement.partitions.toList.countP fun partition =>
      placement.byPartition.get? partition == some host) = 0 := by
  apply List.countP_eq_zero.2
  intro partition _ here
  obtain ⟨held, found, _⟩ := mem_pairs.1 (mem_pairs_of_byPartition (beq_iff_eq.1 here))
  rw [absent] at found
  cases found

/-- Where no host holds more than the limit, none is the host of more partitions. -/
theorem countP_byPartition_le {placement : Placement} {limit : Nat}
    (fits : ∀ host held, placement.partitionsOn host = some held → held.size ≤ limit)
    (host : HostId) :
    (placement.partitions.toList.countP fun partition =>
      placement.byPartition.get? partition == some host) ≤ limit := by
  cases held : placement.partitionsOn host with
  | none =>
    rw [countP_byPartition_eq_zero held]
    exact Nat.zero_le _
  | some partitions =>
    refine Nat.le_trans ?_ (fits host partitions held)
    rw [List.countP_eq_length_filter, IdSet.size]
    refine (List.subperm_of_subset (placement.partitions.nodup.filter _) ?_).length_le
    intro partition listed
    rw [List.mem_filter, beq_iff_eq] at listed
    obtain ⟨known, here, member⟩ := mem_pairs.1 (mem_pairs_of_byPartition listed.2)
    cases held.symm.trans here
    exact member

theorem maxLoad_le_iff {placement : Placement} {limit : Nat} :
    placement.maxLoad ≤ limit ↔
      ∀ host held, placement.partitionsOn host = some held → held.size ≤ limit := by
  have bound (loads : List IdSet) (most : Nat) :
      loads.foldl (fun most partitions => max most partitions.size) most ≤ limit ↔
        most ≤ limit ∧ ∀ load ∈ loads, load.size ≤ limit := by
    induction loads generalizing most with
    | nil => simp
    | cons load loads ih =>
      rw [List.foldl_cons, ih, List.forall_mem_cons, Nat.max_le, and_assoc]
  rw [maxLoad, bound]
  constructor
  · intro fits host held here
    exact fits.2 held (IdMap.mem_values.2 ⟨host, here⟩)
  · intro fits
    refine ⟨Nat.zero_le _, fun held listed => ?_⟩
    obtain ⟨host, here⟩ := IdMap.mem_values.1 listed
    exact fits host held here

theorem keys_byPartition (placement : Placement) :
    placement.byPartition.keys = placement.partitions := by
  apply IdSet.ext
  intro partition
  rw [IdMap.mem_keys, IdMap.contains, isSome_byPartition]

theorem toList_partitions (placement : Placement) :
    placement.partitions.toList = placement.byPartition.entries.map (·.1) := by
  rw [← keys_byPartition]
  rfl

theorem count_values_byPartition (placement : Placement) (host : HostId) :
    placement.byPartition.values.count host =
      placement.partitions.toList.countP fun partition =>
        placement.byPartition.get? partition == some host := by
  rw [toList_partitions, List.countP_map, IdMap.values, List.count, List.countP_map]
  apply List.countP_congr
  intro entry member
  have here := IdMap.get?_eq_some_iff.2 member
  simp [here]

/-- A relocation is counted for each partition that the two partition views place apart. -/
theorem movedCount_eq_countP (placement target : Placement) :
    placement.movedCount target =
      placement.partitions.toList.countP fun partition =>
        target.byPartition.get? partition != placement.byPartition.get? partition := by
  rw [movedCount, movesTo, toList_partitions, List.countP_map, List.length_filterMap_eq_countP]
  apply List.countP_congr
  intro entry member
  have here := IdMap.get?_eq_some_iff.2 member
  by_cases stays : target.byPartition.get? entry.1 = some entry.2
  · simp [stays, here]
  · simp [stays, here]

theorem movedCount_eq_zero {placement target : Placement}
    (same : target.byPartition = placement.byPartition) : placement.movedCount target = 0 := by
  rw [movedCount_eq_countP, same]
  exact List.countP_eq_zero.2 fun _ _ => by simp

/-- A relocation names the two hosts of a partition that the partition views place apart. -/
theorem mem_movesTo {placement target : Placement} {relocation : Relocation} :
    relocation ∈ placement.movesTo target ↔
      placement.byPartition.get? relocation.partition = some relocation.source ∧
        target.byPartition.get? relocation.partition = relocation.target ∧
          relocation.target ≠ some relocation.source := by
  simp only [movesTo, List.mem_filterMap]
  rw [IdMap.get?_eq_some_iff]
  constructor
  · intro found
    obtain ⟨entry, listed, same⟩ := found
    split at same
    · cases same
    · next apart =>
      cases same
      exact ⟨listed, rfl, apart⟩
  · intro told
    obtain ⟨listed, wanted, apart⟩ := told
    exact ⟨_, listed, by simp only [wanted, if_neg apart]⟩

theorem movesTo_sublist (placement target : Placement) :
    ((placement.movesTo target).map (·.partition)).Sublist
      (placement.byPartition.entries.map (·.1)) := by
  unfold movesTo
  simp only
  induction placement.byPartition.entries with
  | nil => exact .slnil
  | cons entry entries ih =>
    rw [List.filterMap_cons]
    split
    · exact ih.cons _
    · next relocation found =>
      split at found
      · cases found
      · cases found
        exact ih.cons_cons _

theorem ascending_movesTo (placement target : Placement) :
    ((placement.movesTo target).map (·.partition)).Pairwise (· < ·) :=
  (List.pairwise_map.2 placement.byPartition.ascending).sublist (movesTo_sublist placement target)

theorem nodup_movesTo (placement target : Placement) :
    ((placement.movesTo target).map (·.partition)).Nodup :=
  (ascending_movesTo placement target).imp Nat.ne_of_lt

def Differs (placement target : Placement) (partition : PartitionId) : Prop :=
  ∃ host, placement.byPartition.get? partition = some host ∧
    target.byPartition.get? partition ≠ some host

theorem differs_iff {placement target : Placement} {partition : PartitionId} :
    placement.Differs target partition ↔
      ∃ relocation ∈ placement.movesTo target, relocation.partition = partition := by
  constructor
  · intro differs
    obtain ⟨host, here, apart⟩ := differs
    exact ⟨⟨partition, host, target.byPartition.get? partition⟩,
      mem_movesTo.2 ⟨here, rfl, apart⟩, rfl⟩
  · intro found
    obtain ⟨relocation, listed, rfl⟩ := found
    obtain ⟨here, wanted, apart⟩ := mem_movesTo.1 listed
    exact ⟨relocation.source, here, wanted ▸ apart⟩

end Rebalance.Placement
