import Mathlib.Data.List.Perm.Subperm
import Rebalance.Proofs.Placement.Hosting
import Rebalance.Topology

/-!
Which sites serve which partitions. The number of up sites of a partition is told by the
sites that serve it, and the placement of a topology hosts a partition where the first of
them is. A change to a site leaves its number and its host.
-/

namespace Rebalance.Topology

section
variable {topology : Topology} {site other : SiteId} {partition : PartitionId}

@[simp] theorem site?_modifySite (topology : Topology) (site other : SiteId) (f : Site → Site) :
    (topology.modifySite site f).site? other =
      if other = site then (topology.site? other).map f else topology.site? other := by
  unfold modifySite site?
  rw [IdMap.get?_mapValues]
  split
  · rfl
  · exact Option.map_id'

theorem site?_assign (topology : Topology) (site other : SiteId) (partition : PartitionId) :
    (topology.assign site partition).site? other =
      if other = site then
        (topology.site? other).map fun found => { found with partition := some partition }
      else topology.site? other :=
  site?_modifySite ..

theorem site?_setUp (topology : Topology) (site other : SiteId) (up : Bool) :
    (topology.setUp site up).site? other =
      if other = site then (topology.site? other).map fun found => { found with up }
      else topology.site? other :=
  site?_modifySite ..

def IsKeyed (topology : Topology) : Prop :=
  ∀ site found, topology.site? site = some found → found.id = site

def Serves (topology : Topology) (site : SiteId) (partition : PartitionId) : Prop :=
  ∃ found, topology.site? site = some found ∧ found.up = true ∧
    found.partition = some partition

theorem Serves.partition_eq {held : PartitionId} (serves : topology.Serves site partition)
    (servesToo : topology.Serves site held) : partition = held := by
  obtain ⟨found, here, _, mapped⟩ := serves
  obtain ⟨again, present, _, mappedToo⟩ := servesToo
  cases here.symm.trans present
  exact Option.some.inj (mapped.symm.trans mappedToo)

theorem mem_siteList {found : Site} :
    found ∈ topology.siteList ↔ ∃ site, topology.site? site = some found := by
  unfold siteList IdMap.values site?
  simp only [List.mem_map, IdMap.get?_eq_some_iff]
  constructor
  · intro listed
    obtain ⟨entry, member, same⟩ := listed
    exact ⟨entry.1, same ▸ member⟩
  · intro listed
    obtain ⟨site, member⟩ := listed
    exact ⟨_, member, rfl⟩

theorem mem_upSitesFor {found : Site} :
    found ∈ topology.upSitesFor partition ↔
      ∃ site, topology.site? site = some found ∧ found.up = true ∧
        found.partition = some partition := by
  rw [upSitesFor, List.mem_filter, mem_siteList, Bool.and_eq_true, decide_eq_true_eq]
  exact exists_and_right.symm

theorem IsKeyed.mem_map_upSitesFor (keyed : topology.IsKeyed) :
    site ∈ (topology.upSitesFor partition).map (·.id) ↔ topology.Serves site partition := by
  rw [List.mem_map]
  constructor
  · intro listed
    obtain ⟨found, member, same⟩ := listed
    obtain ⟨key, here, up, held⟩ := mem_upSitesFor.1 member
    have id := keyed key found here
    subst same
    rw [id]
    exact ⟨found, here, up, held⟩
  · intro serves
    obtain ⟨found, here, up, held⟩ := serves
    exact ⟨found, mem_upSitesFor.2 ⟨site, here, up, held⟩, keyed site found here⟩

theorem IsKeyed.ascending_siteList (keyed : topology.IsKeyed) :
    topology.siteList.Pairwise fun first second => first.id < second.id := by
  unfold siteList IdMap.values
  rw [List.pairwise_map]
  refine topology.sites.ascending.imp_of_mem fun {first second} here there below => ?_
  rw [keyed first.1 first.2 (IdMap.get?_eq_some_iff.2 here),
    keyed second.1 second.2 (IdMap.get?_eq_some_iff.2 there)]
  exact below

theorem IsKeyed.ascending_upSitesFor (keyed : topology.IsKeyed) (partition : PartitionId) :
    (topology.upSitesFor partition).Pairwise fun first second => first.id < second.id :=
  keyed.ascending_siteList.filter _

theorem IsKeyed.nodup_upSitesFor (keyed : topology.IsKeyed) :
    ((topology.upSitesFor partition).map (·.id)).Nodup :=
  List.pairwise_map.2 ((keyed.ascending_upSitesFor partition).imp Nat.ne_of_lt)

theorem IsKeyed.upSitesFor_congr {after : Topology} (keyed : topology.IsKeyed)
    (keyedAfter : after.IsKeyed)
    (same : ∀ found, found ∈ topology.upSitesFor partition ↔ found ∈ after.upSitesFor partition) :
    topology.upSitesFor partition = after.upSitesFor partition := by
  have distinct {sites : List Site}
      (ascending : sites.Pairwise fun first second => first.id < second.id) : sites.Nodup :=
    ascending.imp fun below equal => absurd (equal ▸ below) (Nat.lt_irrefl _)
  have here := keyed.ascending_upSitesFor partition
  have there := keyedAfter.ascending_upSitesFor partition
  apply List.Perm.eq_of_pairwise _ here there
  · exact (List.perm_ext_iff_of_nodup (distinct here) (distinct there)).2 same
  · intro first second _ _ below above
    exact absurd (Nat.lt_trans below above) (Nat.lt_irrefl _)

theorem IsKeyed.one_le_upSites (keyed : topology.IsKeyed) (serves : topology.Serves site partition) :
    1 ≤ (topology.upSitesFor partition).length := by
  have member := keyed.mem_map_upSitesFor.2 serves
  have nonempty := List.length_pos_of_mem member
  rwa [List.length_map] at nonempty

theorem IsKeyed.upSites_le (keyed : topology.IsKeyed) (named : List SiteId)
    (only : ∀ site, topology.Serves site partition → site ∈ named) :
    (topology.upSitesFor partition).length ≤ named.length := by
  have subset : (topology.upSitesFor partition).map (·.id) ⊆ named :=
    fun site member => only site (keyed.mem_map_upSitesFor.1 member)
  have bound := (List.subperm_of_subset keyed.nodup_upSitesFor subset).length_le
  rwa [List.length_map] at bound

/-- Of the sites that serve a partition there is one, if it has one up site. -/
theorem IsKeyed.eq_of_upSites_eq_one (keyed : topology.IsKeyed)
    (one : (topology.upSitesFor partition).length = 1) (serves : topology.Serves site partition)
    (servesToo : topology.Serves other partition) : site = other := by
  obtain ⟨found, listed⟩ := List.length_eq_one_iff.1 one
  have here := keyed.mem_map_upSitesFor.2 serves
  have there := keyed.mem_map_upSitesFor.2 servesToo
  rw [listed, List.map_singleton, List.mem_singleton] at here there
  exact here.trans there.symm

theorem IsKeyed.upSites_eq_one (keyed : topology.IsKeyed) (serves : topology.Serves site partition)
    (only : ∀ other, topology.Serves other partition → other = site) :
    (topology.upSitesFor partition).length = 1 := by
  have least := keyed.one_le_upSites serves
  have most := keyed.upSites_le [site] fun other here => List.mem_singleton.2 (only other here)
  exact Nat.le_antisymm most least

end

def address? (topology : Topology) (site : SiteId) : Option (SiteId × HostId) :=
  (topology.site? site).map fun found => (found.id, found.host)

theorem address?_assign (topology : Topology) (site other : SiteId) (partition : PartitionId) :
    (topology.assign site partition).address? other = topology.address? other := by
  unfold address?
  rw [site?_assign]
  split
  · exact Option.map_map ..
  · rfl

theorem address?_setUp (topology : Topology) (site other : SiteId) (up : Bool) :
    (topology.setUp site up).address? other = topology.address? other := by
  unfold address?
  rw [site?_setUp]
  split
  · exact Option.map_map ..
  · rfl

section
variable {topology other : Topology}

theorem isKeyed_of_address? (same : ∀ site, other.address? site = topology.address? site)
    (keyed : topology.IsKeyed) : other.IsKeyed := by
  intro site found here
  have address : topology.address? site = some (found.id, found.host) := by
    rw [← same, address?, here, Option.map_some]
  obtain ⟨known, there, pair⟩ := Option.map_eq_some_iff.1 address
  rw [← (Prod.mk.inj pair).1]
  exact keyed site known there

theorem hostOfSite_of_address? (same : ∀ site, other.address? site = topology.address? site)
    (site : SiteId) : other.hostOfSite site = topology.hostOfSite site := by
  have host (topology : Topology) :
      topology.hostOfSite site = (topology.address? site).map (·.2) := by
    unfold hostOfSite address?
    rw [Option.map_map]
    rfl
  rw [host, host, same]

end

section
variable {topology : Topology}

theorem placeSite_of_mapped {site : Site} {held : PartitionId}
    (mapped : site.partition = some held) (placement : Placement) :
    placeSite placement site =
      if site.up && (placement.hostOf held).isNone then placement.insert site.host held
      else placement := by
  unfold placeSite
  rw [mapped]

/-- Placing a site decides its partition's host unless that is known already. -/
theorem hostOf_placeSite {placement : Placement} (single : placement.IsSingle) (site : Site)
    (partition : PartitionId) :
    (placeSite placement site).hostOf partition =
      (placement.hostOf partition).or
        (if site.up && site.partition = some partition then some site.host else none) := by
  cases mapped : site.partition with
  | none => simp [placeSite, mapped]
  | some held =>
    rw [placeSite_of_mapped mapped]
    cases site.up with
    | false => simp
    | true =>
      cases hosted : placement.hostOf held with
      | none =>
        rw [if_pos (show (true && (none : Option HostId).isNone) = true from rfl),
          single.hostOf_insert]
        by_cases here : partition = held
        · simp [here, hosted]
        · simp [here, Ne.symm here]
      | some host =>
        by_cases here : held = partition
        · subst here
          simp [hosted]
        · simp [here]

theorem isSingle_placeSite {placement : Placement} (single : placement.IsSingle) (site : Site) :
    (placeSite placement site).IsSingle := by
  unfold placeSite
  split
  · split
    · exact single.insert _ _
    · exact single
  · exact single

theorem hostOf_foldl_placeSite (sites : List Site) {placement : Placement}
    (single : placement.IsSingle) (partition : PartitionId) :
    (sites.foldl placeSite placement).hostOf partition =
      (placement.hostOf partition).or
        ((sites.filter fun site => site.up && site.partition = some partition).head?.map
          (·.host)) := by
  induction sites generalizing placement with
  | nil => simp
  | cons site sites ih =>
    rw [List.foldl_cons, ih (isSingle_placeSite single site), hostOf_placeSite single,
      Option.or_assoc]
    congr 1
    rw [List.filter_cons]
    split
    · rfl
    · rfl

theorem pairs_foldl_addHost (hosts : List HostId) {placement : Placement}
    (empty : ∀ entry, entry ∉ placement.pairs) (entry : HostId × PartitionId) :
    entry ∉ (hosts.foldl Placement.addHost placement).pairs := by
  induction hosts generalizing placement with
  | nil => exact empty entry
  | cons host hosts ih =>
    apply ih
    intro other listed
    exact empty other (Placement.mem_pairs_addHost.1 listed)

theorem pairs_hostsOnly (topology : Topology) (entry : HostId × PartitionId) :
    entry ∉ (topology.hosts.toList.foldl Placement.addHost .empty).pairs :=
  pairs_foldl_addHost topology.hosts.toList (fun _ => List.not_mem_nil) entry

theorem isSingle_hostsOnly (topology : Topology) :
    (topology.hosts.toList.foldl Placement.addHost .empty).IsSingle :=
  fun entry listed => absurd listed (topology.pairs_hostsOnly entry)

theorem isSingle_placement (topology : Topology) : topology.placement.IsSingle :=
  List.foldlRecOn (motive := Placement.IsSingle) _ _ topology.isSingle_hostsOnly
    fun _ single site _ => isSingle_placeSite single site

/-- The placement of a topology hosts a partition where its lowest-numbered up site is. -/
theorem hostOf_placement (topology : Topology) (partition : PartitionId) :
    topology.placement.hostOf partition =
      (topology.upSitesFor partition).head?.map (·.host) := by
  have unhosted : (topology.hosts.toList.foldl Placement.addHost .empty).hostOf partition =
      none := by
    cases hosted : (topology.hosts.toList.foldl Placement.addHost .empty).hostOf partition with
    | none => rfl
    | some host =>
      exact absurd (Placement.mem_pairs_of_hostOf hosted) (topology.pairs_hostsOnly _)
  rw [placement, hostOf_foldl_placeSite _ topology.isSingle_hostsOnly, unhosted, Option.none_or]
  rfl

/-- The first up site of a partition is the lowest-numbered one that serves it. -/
theorem IsKeyed.head?_upSitesFor_iff (keyed : topology.IsKeyed) {partition : PartitionId}
    {found : Site} :
    (topology.upSitesFor partition).head? = some found ↔
      topology.site? found.id = some found ∧ topology.Serves found.id partition ∧
        ∀ other, topology.Serves other partition → found.id ≤ other := by
  have ascending := keyed.ascending_upSitesFor partition
  have listed (site : SiteId) : site ∈ (topology.upSitesFor partition).map (·.id) ↔
      topology.Serves site partition := keyed.mem_map_upSitesFor
  cases sites : topology.upSitesFor partition with
  | nil =>
    rw [sites] at listed
    refine iff_of_false nofun fun lowest => ?_
    exact List.not_mem_nil ((listed found.id).2 lowest.2.1)
  | cons first rest =>
    rw [sites] at listed ascending
    have serves := (listed first.id).1 List.mem_cons_self
    have least (other : SiteId) (servesToo : topology.Serves other partition) :
        first.id ≤ other := by
      rcases List.mem_cons.1 ((listed other).2 servesToo) with same | later
      · exact Nat.le_of_eq same.symm
      · obtain ⟨site, member, same⟩ := List.mem_map.1 later
        exact same ▸ Nat.le_of_lt ((List.pairwise_cons.1 ascending).1 site member)
    have here : topology.site? first.id = some first := by
      obtain ⟨key, there, _⟩ := mem_upSitesFor.1 (sites ▸ List.mem_cons_self)
      rw [keyed key first there, there]
    rw [List.head?_cons, Option.some.injEq]
    constructor
    · intro same
      exact same ▸ ⟨here, serves, least⟩
    · intro lowest
      obtain ⟨there, servesToo, leastToo⟩ := lowest
      have same := Nat.le_antisymm (least found.id servesToo) (leastToo first.id serves)
      rw [← same, here] at there
      exact Option.some.inj there

theorem IsKeyed.hostOf_placement_iff (keyed : topology.IsKeyed) {partition : PartitionId}
    {host : HostId} :
    topology.placement.hostOf partition = some host ↔
      ∃ site found, topology.site? site = some found ∧ found.host = host ∧
        topology.Serves site partition ∧
          ∀ other, topology.Serves other partition → site ≤ other := by
  rw [hostOf_placement, Option.map_eq_some_iff]
  constructor
  · intro placed
    obtain ⟨found, first, host⟩ := placed
    obtain ⟨here, lowest⟩ := keyed.head?_upSitesFor_iff.1 first
    exact ⟨found.id, found, here, host, lowest⟩
  · intro placed
    obtain ⟨site, found, here, host, lowest⟩ := placed
    obtain rfl := keyed site found here
    exact ⟨found, keyed.head?_upSitesFor_iff.2 ⟨here, lowest⟩, host⟩

theorem IsKeyed.hostOf_placement_of_unique (keyed : topology.IsKeyed) {site : SiteId}
    {found : Site} {partition : PartitionId} (here : topology.site? site = some found)
    (serves : topology.Serves site partition)
    (only : ∀ other, topology.Serves other partition → other = site) :
    topology.placement.hostOf partition = some found.host :=
  keyed.hostOf_placement_iff.2
    ⟨site, found, here, rfl, serves, fun other known => Nat.le_of_eq (only other known).symm⟩

end

end Rebalance.Topology
