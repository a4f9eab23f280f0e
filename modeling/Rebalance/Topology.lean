import Rebalance.Placement.Basic

/-!
The hosts and sites of a cluster at one moment. A site is a slot on a host that may hold a
replica of a partition; it serves while it is up, and is a target for copies while it is down.
-/

namespace Rebalance

structure Site where
  id : SiteId
  host : HostId
  /-- The partition the site is mapped to; a spare slot has none. -/
  partition : Option PartitionId
  up : Bool
deriving DecidableEq, Inhabited

structure Topology where
  hosts : IdSet
  sites : IdMap Site
deriving DecidableEq, Inhabited

namespace Topology

def new (hosts : List HostId) (sites : List Site) : Topology :=
  { hosts := (IdSet.ofList hosts).union (IdSet.ofList (sites.map (·.host)))
    sites := IdMap.ofList (sites.map fun site => (site.id, site)) }

def siteList (topology : Topology) : List Site := topology.sites.values

def site? (topology : Topology) (site : SiteId) : Option Site := topology.sites.get? site

def hostOfSite (topology : Topology) (site : SiteId) : Option HostId :=
  (topology.site? site).map (·.host)

def partitionOfSite (topology : Topology) (site : SiteId) : Option PartitionId :=
  (topology.site? site).bind (·.partition)

def sitesOnHost (topology : Topology) (host : HostId) : List Site :=
  topology.siteList.filter (·.host = host)

def upSitesFor (topology : Topology) (partition : PartitionId) : List Site :=
  topology.siteList.filter fun site => site.up && site.partition = some partition

def liveSiteOn (topology : Topology) (host : HostId) (partition : PartitionId) : Option SiteId :=
  ((topology.upSitesFor partition).find? (·.host = host)).map (·.id)

def downSitesOn (topology : Topology) (host : HostId) : List Site :=
  (topology.sitesOnHost host).filter (!·.up)

def placeSite (placement : Placement) (site : Site) : Placement :=
  match site.partition with
  | some partition =>
    if site.up && (placement.hostOf partition).isNone then placement.insert site.host partition
    else placement
  | none => placement

/-- The placement that the up sites imply. A partition served on several hosts, as while it is
copied, belongs to its lowest-numbered up site; every known host is part of the placement. -/
def placement (topology : Topology) : Placement :=
  topology.siteList.foldl placeSite (topology.hosts.toList.foldl Placement.addHost .empty)

def modifySite (topology : Topology) (site : SiteId) (f : Site → Site) : Topology :=
  { topology with
    sites := topology.sites.mapValues fun id found => if id = site then f found else found }

def setUp (topology : Topology) (site : SiteId) (up : Bool) : Topology :=
  topology.modifySite site ({ · with up })

def assign (topology : Topology) (site : SiteId) (partition : PartitionId) : Topology :=
  topology.modifySite site ({ · with partition := some partition })

end Topology

end Rebalance
