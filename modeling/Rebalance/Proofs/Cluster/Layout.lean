import Mathlib.Data.List.Nodup
import Rebalance.Cluster.Layout
import Rebalance.Proofs.Cluster.Overlay

/-!
A cluster starts out settled: a validated layout gives every partition one site, on the host
that its number names.
-/

namespace Rebalance

theorem of_check {ε : Type} {failed : Prop} [Decidable failed] {error : ε} {rest : Except ε Unit}
    (passed : (if failed then throw error else rest) = .ok ()) : ¬ failed ∧ rest = .ok () := by
  split at passed
  · cases passed
  · next holds => exact ⟨holds, passed⟩

theorem Topology.site?_new {hosts : List HostId} {sites : List Site} {site : SiteId}
    {found : Site} (here : (Topology.new hosts sites).site? site = some found) :
    found ∈ sites ∧ found.id = site := by
  obtain ⟨known, member, same⟩ := List.mem_map.1 (IdMap.mem_of_get?_ofList here)
  cases same
  exact ⟨member, rfl⟩

theorem Topology.isKeyed_new (hosts : List HostId) (sites : List Site) :
    (Topology.new hosts sites).IsKeyed := fun _ _ here => (site?_new here).2

theorem Topology.exists_site?_new {sites : List Site} {found : Site} (member : found ∈ sites)
    (hosts : List HostId) :
    ∃ again, (Topology.new hosts sites).site? found.id = some again := by
  apply Option.isSome_iff_exists.1
  exact IdMap.isSome_get?_ofList.2 ⟨_, List.mem_map_of_mem member, rfl⟩

namespace Layout

def partitions (layout : Layout) : List PartitionId := layout.hostIds.flatMap layout.partitionsOf

def slots (layout : Layout) : List (HostId × Option PartitionId) :=
  layout.hostIds.flatMap layout.slotsOf

variable {layout : Layout}

theorem few_of_validate (valid : layout.validate = .ok ()) : layout.partitionsPerHost < 100 := by
  obtain ⟨_, valid⟩ := of_check valid
  obtain ⟨_, valid⟩ := of_check valid
  exact Nat.lt_of_not_le (of_check valid).1

theorem nodup_partitions (valid : layout.validate = .ok ()) : layout.partitions.Nodup := by
  have few := few_of_validate valid
  unfold partitions hostIds partitionsOf
  rw [List.nodup_flatMap]
  constructor
  · intro host _
    apply List.nodup_range.map
    intro index other same
    exact Nat.succ.inj (Nat.add_left_cancel same)
  · rw [List.pairwise_map]
    refine List.pairwise_lt_range.imp fun {first second} below => ?_
    intro partition here there
    obtain ⟨index, bound, rfl⟩ := List.mem_map.1 here
    obtain ⟨other, boundToo, same⟩ := List.mem_map.1 there
    rw [List.mem_range] at bound boundToo
    have sums : (second + 1) * 100 + (other + 1) = (first + 1) * 100 + (index + 1) := same
    omega

theorem filterMap_slots (layout : Layout) : layout.slots.filterMap (·.2) = layout.partitions := by
  unfold slots partitions
  rw [List.filterMap_flatMap]
  congr 1
  funext host
  simp [slotsOf, List.filterMap_append, List.filterMap_map]

theorem mem_sites {site : Site} :
    site ∈ layout.sites ↔ ∃ index slot, layout.slots[index]? = some slot ∧
      site = { id := index + 1, host := slot.1, partition := slot.2, up := slot.2.isSome } := by
  change site ∈ layout.slots.zipIdx.map _ ↔ _
  rw [List.mem_map]
  constructor
  · intro listed
    obtain ⟨⟨slot, index⟩, member, same⟩ := listed
    exact ⟨index, slot, List.mem_zipIdx_iff_getElem?.1 member, same.symm⟩
  · intro found
    obtain ⟨index, slot, here, same⟩ := found
    exact ⟨(slot, index), List.mem_zipIdx_iff_getElem?.2 here, same.symm⟩

theorem serves_topology {site : SiteId} {partition : PartitionId} :
    layout.topology.Serves site partition ↔
      ∃ index host, layout.slots[index]? = some (host, some partition) ∧ site = index + 1 := by
  constructor
  · intro serves
    obtain ⟨found, here, _, held⟩ := serves
    obtain ⟨member, key⟩ := Topology.site?_new here
    obtain ⟨index, slot, slotHere, rfl⟩ := mem_sites.1 member
    exact ⟨index, slot.1, slotHere.trans (congrArg (fun held => some (slot.1, held)) held),
      key.symm⟩
  · intro found
    obtain ⟨index, host, here, rfl⟩ := found
    have member := mem_sites.2 ⟨index, _, here, rfl⟩
    obtain ⟨again, present⟩ := Topology.exists_site?_new member layout.hostIds
    obtain ⟨memberToo, key⟩ := Topology.site?_new present
    obtain ⟨other, slot, there, rfl⟩ := mem_sites.1 memberToo
    cases Nat.succ.inj key
    cases here.symm.trans there
    exact ⟨_, present, rfl, rfl⟩

theorem slot_unique (valid : layout.validate = .ok ()) {first second : Nat}
    {host hostToo : HostId} {partition : PartitionId}
    (here : layout.slots[first]? = some (host, some partition))
    (there : layout.slots[second]? = some (hostToo, some partition)) : first = second := by
  have distinct : layout.slots.Pairwise fun a b => ∀ p, a.2 = some p → b.2 ≠ some p := by
    have nodup := nodup_partitions valid
    rw [← filterMap_slots, List.Nodup, List.pairwise_filterMap] at nodup
    refine nodup.imp fun apart p held heldToo => ?_
    exact apart p held p heldToo rfl
  obtain ⟨bound, same⟩ := List.getElem?_eq_some_iff.1 here
  obtain ⟨boundToo, sameToo⟩ := List.getElem?_eq_some_iff.1 there
  rw [List.pairwise_iff_getElem] at distinct
  rcases Nat.lt_trichotomy first second with below | equal | above
  · have clash := distinct first second bound boundToo below partition
    rw [same, sameToo] at clash
    exact absurd rfl (clash rfl)
  · exact equal
  · have clash := distinct second first boundToo bound above partition
    rw [same, sameToo] at clash
    exact absurd rfl (clash rfl)

theorem isSettled_topology (valid : layout.validate = .ok ()) :
    layout.topology.IsSettled layout.partitions where
  keyed := Topology.isKeyed_new _ _
  known site partition serves := by
    obtain ⟨index, host, here, _⟩ := serves_topology.1 serves
    rw [← filterMap_slots, List.mem_filterMap]
    exact ⟨_, List.mem_of_getElem? here, rfl⟩
  unique partition member := by
    rw [← filterMap_slots, List.mem_filterMap] at member
    obtain ⟨⟨host, held⟩, listed, same⟩ := member
    obtain ⟨index, here⟩ := List.mem_iff_getElem?.1 listed
    cases same
    refine ⟨index + 1, serves_topology.2 ⟨index, host, here, rfl⟩, ?_⟩
    intro other serves
    obtain ⟨second, _, there, rfl⟩ := serves_topology.1 serves
    rw [slot_unique valid there here]

end Layout

end Rebalance
