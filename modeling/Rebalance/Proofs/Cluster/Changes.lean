import Mathlib.Data.Nat.Find
import Rebalance.Proofs.Cluster.Layout

/-!
The placement of a topology whose sites go up and down and are mapped to other partitions. It
shows every known host, and each partition that is served on the host of its lowest-numbered up
site: a change to any other site does not show.
-/

namespace Rebalance.Topology

inductive Change
  | setUp (site : SiteId) (up : Bool)
  | assign (site : SiteId) (partition : PartitionId)
deriving DecidableEq, Inhabited

def Change.site : Change → SiteId
  | .setUp site _ => site
  | .assign site _ => site

def change (topology : Topology) : Change → Topology
  | .setUp site up => topology.setUp site up
  | .assign site partition => topology.assign site partition

def changed (topology : Topology) (changes : List Change) : Topology :=
  changes.foldl change topology

def IsLowest (topology : Topology) (site : SiteId) (partition : PartitionId) : Prop :=
  topology.Serves site partition ∧ ∀ other, topology.Serves other partition → site ≤ other

def IsHoused (topology : Topology) : Prop :=
  ∀ site host, topology.hostOfSite site = some host → host ∈ topology.hosts

section
variable {topology : Topology}

theorem isHoused_new (hosts : List HostId) (sites : List Site) : (new hosts sites).IsHoused := by
  intro site host here
  obtain ⟨found, there, rfl⟩ := Option.map_eq_some_iff.1 here
  obtain ⟨member, _⟩ := site?_new there
  exact IdSet.mem_union.2 (.inr (IdSet.mem_ofList.2 (List.mem_map_of_mem member)))

theorem mem_hosts_new {hosts : List HostId} {sites : List Site} {host : HostId} :
    host ∈ (new hosts sites).hosts ↔ host ∈ hosts ∨ ∃ site ∈ sites, site.host = host := by
  rw [new, IdSet.mem_union, IdSet.mem_ofList, IdSet.mem_ofList, List.mem_map]

theorem hosts_change (topology : Topology) (change : Change) :
    (topology.change change).hosts = topology.hosts := by
  cases change with
  | setUp site up => rfl
  | assign site partition => rfl

theorem address?_change (topology : Topology) (change : Change) (site : SiteId) :
    (topology.change change).address? site = topology.address? site := by
  cases change with
  | setUp changed up => exact topology.address?_setUp changed site up
  | assign changed partition => exact topology.address?_assign changed site partition

theorem site?_change (change : Change) {site : SiteId} (away : site ≠ change.site) :
    (topology.change change).site? site = topology.site? site := by
  cases change with
  | setUp changed up => exact (topology.site?_setUp changed site up).trans (if_neg away)
  | assign changed partition =>
    exact (topology.site?_assign changed site partition).trans (if_neg away)

theorem hosts_changed (topology : Topology) (changes : List Change) :
    (topology.changed changes).hosts = topology.hosts :=
  List.foldlRecOn (motive := fun after => after.hosts = topology.hosts) changes change rfl
    fun after same next _ => (after.hosts_change next).trans same

theorem address?_changed (topology : Topology) (changes : List Change) (site : SiteId) :
    (topology.changed changes).address? site = topology.address? site :=
  List.foldlRecOn (motive := fun after => after.address? site = topology.address? site) changes
    change rfl fun after same next _ => (after.address?_change next site).trans same

theorem IsHoused.of_address? {after : Topology} (housed : topology.IsHoused)
    (hosts : after.hosts = topology.hosts)
    (same : ∀ site, after.address? site = topology.address? site) : after.IsHoused := by
  intro site host here
  rw [hostOfSite_of_address? same] at here
  exact hosts ▸ housed site host here

end

section
variable {topology : Topology}

theorem mem_hostIds_foldl_addHost (hosts : List HostId) (placement : Placement) (host : HostId) :
    host ∈ (hosts.foldl Placement.addHost placement).hostIds ↔
      host ∈ hosts ∨ host ∈ placement.hostIds := by
  induction hosts generalizing placement with
  | nil => simp
  | cons first hosts ih =>
    rw [List.foldl_cons, ih, Placement.mem_hostIds_addHost, List.mem_cons]
    exact or_left_comm.trans or_assoc.symm

theorem mem_hostIds_placeSite {placement : Placement} {site : Site}
    (shown : site.host ∈ placement.hostIds) (host : HostId) :
    host ∈ (placeSite placement site).hostIds ↔ host ∈ placement.hostIds := by
  unfold placeSite
  split
  · split
    · rw [Placement.mem_hostIds_insert]
      exact or_iff_right_of_imp fun same => same ▸ shown
    · exact Iff.rfl
  · exact Iff.rfl

theorem IsHoused.hostIds_placement (housed : topology.IsHoused) :
    topology.placement.hostIds = topology.hosts := by
  apply IdSet.ext
  intro host
  have bare (host : HostId) :
      host ∈ (topology.hosts.toList.foldl Placement.addHost .empty).hostIds ↔
        host ∈ topology.hosts := by
    rw [mem_hostIds_foldl_addHost]
    exact or_iff_left IdSet.mem_empty
  have sited : ∀ site ∈ topology.siteList, site.host ∈ topology.hosts := by
    intro site listed
    obtain ⟨id, here⟩ := mem_siteList.1 listed
    exact housed id site.host (congrArg (Option.map Site.host) here)
  refine List.foldlRecOn (motive := fun placement : Placement =>
    ∀ host, host ∈ placement.hostIds ↔ host ∈ topology.hosts) topology.siteList placeSite bare
    (fun placement shown site listed host => ?_) host
  rw [mem_hostIds_placeSite ((shown site.host).2 (sited site listed)), shown]

theorem IsKeyed.mem_pairs_placement (keyed : topology.IsKeyed) {host : HostId}
    {partition : PartitionId} :
    (host, partition) ∈ topology.placement.pairs ↔
      ∃ site, topology.IsLowest site partition ∧ topology.hostOfSite site = some host := by
  rw [← topology.isSingle_placement.hostOf_eq_some_iff, keyed.hostOf_placement_iff]
  constructor
  · intro placed
    obtain ⟨site, found, here, host, lowest⟩ := placed
    exact ⟨site, lowest, by rw [hostOfSite, here, Option.map_some, host]⟩
  · intro placed
    obtain ⟨site, lowest, here⟩ := placed
    obtain ⟨found, there, host⟩ := Option.map_eq_some_iff.1 here
    exact ⟨site, found, there, host, lowest⟩

theorem exists_isLowest {site : SiteId} {partition : PartitionId}
    (serves : topology.Serves site partition) : ∃ lowest, topology.IsLowest lowest partition := by
  classical
  have served : ∃ site, topology.Serves site partition := ⟨site, serves⟩
  exact ⟨Nat.find served, Nat.find_spec served, fun other => Nat.find_min' served⟩

/-- A site that is not the lowest of a partition, with the change or without, leaves the one that
is as it was. -/
theorem IsLowest.of_agree {after : Topology} {site changed : SiteId} {partition : PartitionId}
    (lowest : topology.IsLowest site partition)
    (same : ∀ other, other ≠ changed → after.site? other = topology.site? other)
    (apart : ¬ topology.IsLowest changed partition) (apartToo : ¬ after.IsLowest changed partition) :
    after.IsLowest site partition := by
  have kept {other : SiteId} (away : other ≠ changed) :
      after.Serves other partition ↔ topology.Serves other partition := by
    unfold Serves
    rw [same other away]
  have away : site ≠ changed := fun here => apart (here ▸ lowest)
  refine ⟨(kept away).2 lowest.1, fun other serves => ?_⟩
  by_cases here : other = changed
  · subst here
    -- were the changed site lower than the lowest of the others, it would be the lowest now
    by_contra above
    refine apartToo ⟨serves, fun further servesToo => ?_⟩
    by_cases itself : further = other
    · exact Nat.le_of_eq itself.symm
    · have bound := lowest.2 further ((kept itself).1 servesToo)
      exact Nat.le_of_lt (Nat.lt_of_lt_of_le (Nat.lt_of_not_le above) bound)
  · exact lowest.2 other ((kept here).1 serves)

theorem IsKeyed.mem_partitions_placement (keyed : topology.IsKeyed) {partition : PartitionId} :
    partition ∈ topology.placement.partitions ↔ ∃ site, topology.Serves site partition := by
  rw [Placement.mem_partitions]
  constructor
  · intro placed
    obtain ⟨host, listed⟩ := placed
    obtain ⟨site, lowest, _⟩ := keyed.mem_pairs_placement.1 listed
    exact ⟨site, lowest.1⟩
  · intro served
    obtain ⟨_, serves⟩ := served
    obtain ⟨site, lowest⟩ := exists_isLowest serves
    obtain ⟨found, here, _⟩ := lowest.1
    exact ⟨found.host, keyed.mem_pairs_placement.2
      ⟨site, lowest, congrArg (Option.map Site.host) here⟩⟩

theorem placement_change (keyed : topology.IsKeyed) (housed : topology.IsHoused) {change : Change}
    (apart : ∀ partition, ¬ topology.IsLowest change.site partition ∧
      ¬ (topology.change change).IsLowest change.site partition) :
    (topology.change change).placement = topology.placement := by
  have address := topology.address?_change change
  have keyedToo := isKeyed_of_address? address keyed
  have housedToo := housed.of_address? (topology.hosts_change change) address
  have agree (site : SiteId) (away : site ≠ change.site) := topology.site?_change change away
  have same (site : SiteId) (partition : PartitionId) :
      (topology.change change).IsLowest site partition ↔ topology.IsLowest site partition := by
    constructor
    · intro lowest
      exact lowest.of_agree (fun other away => (agree other away).symm) (apart partition).2
        (apart partition).1
    · intro lowest
      exact lowest.of_agree agree (apart partition).1 (apart partition).2
  apply Placement.ext_of_mem
  · intro host
    rw [housedToo.hostIds_placement, housed.hostIds_placement, hosts_change]
  · intro host partition
    rw [keyedToo.mem_pairs_placement, keyed.mem_pairs_placement]
    simp only [same, hostOfSite_of_address? address]

end

/-- However the sites were listed and changed since, the placement shows every known host, and
exactly the partitions that are served, each on one host alone, which is that of its
lowest-numbered up site. A change to a site that is not the lowest of any partition before or
after it leaves the placement as it is. -/
theorem placement_of_changed (hosts : List HostId) (sites : List Site) (changes : List Change) :
    let topology := (new hosts sites).changed changes
    topology.placement.hostIds = topology.hosts ∧
      (∀ host, host ∈ topology.hosts ↔ host ∈ hosts ∨ ∃ site ∈ sites, site.host = host) ∧
      (∀ partition, partition ∈ topology.placement.partitions ↔
        ∃ site, topology.Serves site partition) ∧
      (∀ partition ∈ topology.placement.partitions, ∃ site host,
        topology.IsLowest site partition ∧ topology.hostOfSite site = some host ∧
          ∀ known, (known, partition) ∈ topology.placement.pairs ↔ known = host) ∧
      ∀ change : Change, (∀ partition, ¬ topology.IsLowest change.site partition ∧
          ¬ (topology.change change).IsLowest change.site partition) →
        (topology.change change).placement = topology.placement := by
  intro topology
  have address := (new hosts sites).address?_changed changes
  have keyed : topology.IsKeyed := isKeyed_of_address? address (isKeyed_new hosts sites)
  have housed : topology.IsHoused :=
    (isHoused_new hosts sites).of_address? (hosts_changed _ changes) address
  refine ⟨housed.hostIds_placement, fun host => ?_, fun _ => keyed.mem_partitions_placement,
    fun partition listed => ?_, fun _ => placement_change keyed housed⟩
  · rw [hosts_changed, mem_hosts_new]
  · obtain ⟨host, pair⟩ := Placement.mem_partitions.1 listed
    obtain ⟨site, lowest, here⟩ := keyed.mem_pairs_placement.1 pair
    refine ⟨site, host, lowest, here, fun known => ⟨fun other => ?_, fun same => same ▸ pair⟩⟩
    exact congrArg Prod.fst (topology.isSingle_placement _ other _ pair rfl)

/-- Of two sites that are listed under one number the last counts, but both hosts are shown. The
copy that comes up serves a partition beside a site with a lower number, so nothing moves. -/
theorem placement_of_changed_copy :
    let hosts := [300]
    let sites : List Site := [⟨2, 400, some 102, true⟩, ⟨1, 100, some 101, true⟩,
      ⟨2, 200, some 201, true⟩, ⟨3, 200, none, false⟩]
    let topology := (new hosts sites).changed [.assign 3 101, .setUp 2 false]
    let change : Change := .setUp 3 true
    topology.placement.hostIds = .ofList [100, 200, 300, 400] ∧
      topology.placement.pairs = [(100, 101)] ∧ (topology.change change).Serves 3 101 ∧
      (∀ partition, ¬ topology.IsLowest change.site partition ∧
        ¬ (topology.change change).IsLowest change.site partition) ∧
      (topology.change change).placement = topology.placement := by
  intro hosts sites topology change
  obtain ⟨_, _, _, _, kept⟩ := placement_of_changed hosts sites
    [.assign 3 101, .setUp 2 false]
  have up : (topology.change change).Serves 3 101 := ⟨_, rfl, rfl, rfl⟩
  have apart : ∀ partition, ¬ topology.IsLowest change.site partition ∧
      ¬ (topology.change change).IsLowest change.site partition := by
    intro partition
    constructor
    · intro lowest
      obtain ⟨found, here, serving, _⟩ := lowest.1
      cases here
      cases serving
    · intro lowest
      cases lowest.1.partition_eq up
      have below := lowest.2 1 ⟨_, rfl, rfl, rfl⟩
      exact absurd below (by decide)
  exact ⟨by decide, by decide, up, apart, kept change apart⟩

end Rebalance.Topology
