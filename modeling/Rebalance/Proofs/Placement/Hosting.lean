import Rebalance.Proofs.Placement.Views

/-!
Where a placement hosts a partition. Without a partition on two hosts, the first host that
holds it is the only one.
-/

namespace Rebalance.Placement

theorem mem_pairs_of_hostOf {placement : Placement} {host : HostId} {partition : PartitionId}
    (found : placement.hostOf partition = some host) : (host, partition) ∈ placement.pairs := by
  obtain ⟨entry, first, rfl⟩ := Option.map_eq_some_iff.1 found
  have holds := List.find?_some first
  apply mem_pairs.2
  exact ⟨entry.2, IdMap.get?_eq_some_iff.2 (List.mem_of_find?_eq_some first),
    List.contains_iff_mem.1 holds⟩

theorem isSome_hostOf {placement : Placement} {host : HostId} {partition : PartitionId}
    (listed : (host, partition) ∈ placement.pairs) : (placement.hostOf partition).isSome := by
  obtain ⟨held, found, member⟩ := mem_pairs.1 listed
  rw [hostOf, Option.isSome_map, List.find?_isSome]
  exact ⟨(host, held), IdMap.get?_eq_some_iff.1 found, List.contains_iff_mem.2 member⟩

theorem IsSingle.hostOf_eq_some_iff {placement : Placement} (single : placement.IsSingle)
    {host : HostId} {partition : PartitionId} :
    placement.hostOf partition = some host ↔ (host, partition) ∈ placement.pairs := by
  refine ⟨mem_pairs_of_hostOf, fun listed => ?_⟩
  obtain ⟨known, found⟩ := Option.isSome_iff_exists.1 (isSome_hostOf listed)
  have same := single _ (mem_pairs_of_hostOf found) _ listed rfl
  rw [found, Option.some.injEq]
  exact congrArg Prod.fst same

theorem IsSingle.hostOf_insert {placement : Placement} (single : placement.IsSingle)
    (host : HostId) (partition other : PartitionId) :
    (placement.insert host partition).hostOf other =
      if other = partition then some host else placement.hostOf other := by
  apply Option.ext
  intro known
  rw [(single.insert host partition).hostOf_eq_some_iff, mem_pairs_insert]
  split
  · next here => simp [here, eq_comm]
  · next differs => simp [differs, single.hostOf_eq_some_iff]

/-- In the partition view, an insertion changes the host of one partition. -/
theorem IsSingle.byPartition_insert {placement : Placement} (single : placement.IsSingle)
    (host : HostId) (partition other : PartitionId) :
    (placement.insert host partition).byPartition.get? other =
      if other = partition then some host else placement.byPartition.get? other := by
  apply Option.ext
  intro known
  rw [(single.insert host partition).byPartition_eq_some_iff, mem_pairs_insert]
  split
  · next here => simp [here, eq_comm]
  · next differs => simp [differs, single.byPartition_eq_some_iff]

theorem mem_hostIds_insert {placement : Placement} {host known : HostId}
    {partition : PartitionId} :
    known ∈ (placement.insert host partition).hostIds ↔ known = host ∨ known ∈ placement.hostIds := by
  rw [mem_hostIds, mem_hostIds, partitionsOn_insert]
  by_cases here : known = host <;> simp [here]

theorem mem_partitions_insert {placement : Placement} {host : HostId}
    {partition other : PartitionId} :
    other ∈ (placement.insert host partition).partitions ↔
      other = partition ∨ other ∈ placement.partitions := by
  simp only [mem_partitions, mem_pairs_insert]
  constructor
  · rintro ⟨known, ⟨rfl, rfl⟩ | ⟨old, _⟩⟩
    · exact .inl rfl
    · exact .inr ⟨known, old⟩
  · rintro (rfl | ⟨known, old⟩)
    · exact ⟨host, .inl ⟨rfl, rfl⟩⟩
    · by_cases here : other = partition
      · exact ⟨host, .inl ⟨rfl, here⟩⟩
      · exact ⟨known, .inr ⟨old, here⟩⟩

/-- An insertion adds at most one partition to its host and none to any other. -/
theorem size_of_partitionsOn_insert {placement : Placement} {host known : HostId}
    {partition : PartitionId} {held : IdSet}
    (found : (placement.insert host partition).partitionsOn known = some held) :
    held.size ≤ ((placement.partitionsOn known).getD .empty).size +
      if known = host then 1 else 0 := by
  have fewer (before : IdSet) : (before.erase partition).size ≤ before.size :=
    (List.subperm_of_subset (IdSet.nodup _) fun _ member =>
      (IdSet.mem_erase.1 member).1).length_le
  have oneMore (before : IdSet) : (before.insert partition).size ≤ before.size + 1 :=
    (List.subperm_of_subset (IdSet.nodup _) fun _ member =>
      List.mem_cons.2 (IdSet.mem_insert.1 member)).length_le
  rw [partitionsOn_insert] at found
  split at found
  · next here =>
    subst here
    cases found
    rw [if_pos rfl]
    cases placement.partitionsOn known with
    | none => exact oneMore .empty
    | some before => exact Nat.le_trans (oneMore _) (Nat.succ_le_succ (fewer before))
  · next differs =>
    rw [if_neg differs]
    obtain ⟨before, old, rfl⟩ := Option.map_eq_some_iff.1 found
    rw [old]
    exact fewer before

theorem mem_pairs_addHost {placement : Placement} {host : HostId}
    {entry : HostId × PartitionId} :
    entry ∈ (placement.addHost host).pairs ↔ entry ∈ placement.pairs := by
  obtain ⟨known, partition⟩ := entry
  rw [mem_pairs, mem_pairs, addHost, partitionsOn, IdMap.get?_upsert, partitionsOn]
  split
  · next here =>
    subst here
    cases placement.hosts.get? known <;> simp
  · rfl

theorem mem_hostIds_addHost {placement : Placement} {host known : HostId} :
    known ∈ (placement.addHost host).hostIds ↔ known = host ∨ known ∈ placement.hostIds := by
  simp only [mem_hostIds, addHost, partitionsOn, IdMap.get?_upsert]
  by_cases here : known = host <;> simp [here]

end Rebalance.Placement
