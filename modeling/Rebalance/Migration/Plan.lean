import Rebalance.Topology

/-!
From a wanted placement to the copies that realise it. A copy goes from a site that serves
the partition to a down site of the wanted host; a partition for which either is missing is
skipped, with the reason.
-/

namespace Rebalance

structure Move where
  partition : PartitionId
  sourceHost : HostId
  /-- Retired once the whole migration is complete. -/
  sourceSite : SiteId
  targetHost : HostId
  /-- The site copied into, which also identifies the acknowledgement. -/
  targetSite : SiteId
deriving DecidableEq, Inhabited

inductive SkipReason
  | notInTarget
  | noTargetSite
  | noSourceSite
deriving DecidableEq, Inhabited

def SkipReason.text : SkipReason → String
  | .notInTarget => "partition missing from target placement"
  | .noTargetSite => "no down site available on destination host"
  | .noSourceSite => "no live source site"

structure Skip where
  partition : PartitionId
  targetHost : Option HostId
  reason : SkipReason
deriving DecidableEq, Inhabited

structure Plan where
  moves : List Move := []
  skipped : List Skip := []
deriving DecidableEq, Inhabited

namespace Plan

def isEmpty (plan : Plan) : Bool := plan.moves.isEmpty

def claimed (plan : Plan) : List SiteId := plan.moves.map (·.targetSite)

def leastBy {β : Type} (rank : β → Nat) : List β → Option β
  | [] => none
  | b :: rest =>
    match leastBy rank rest with
    | some other => if rank other < rank b then some other else some b
    | none => some b

/-- A down site that already holds the partition is preferred to a spare one, and a spare one
to any other. -/
def targetRank (partition : PartitionId) (site : Site) : Nat :=
  match site.partition with
  | some held => if held = partition then 0 else 2
  | none => 1

def sourceRank (present : HostId) (site : Site) : Nat := if site.host = present then 0 else 1

def targetSite? (topology : Topology) (claimed : List SiteId) (host : HostId)
    (partition : PartitionId) : Option Site :=
  leastBy (targetRank partition)
    ((topology.downSitesOn host).filter fun site => !claimed.contains site.id)

def sourceSite? (topology : Topology) (present target : HostId) (partition : PartitionId) :
    Option Site :=
  leastBy (sourceRank present)
    ((topology.upSitesFor partition).filter fun site => site.host != target)

def skip (plan : Plan) (partition : PartitionId) (target : Option HostId) (reason : SkipReason) :
    Plan :=
  { plan with skipped := plan.skipped ++ [⟨partition, target, reason⟩] }

/-- Adds what one relocation needs: a move, a skip, or nothing where the partition is already
served on the wanted host. -/
def add (topology : Topology) (plan : Plan) (relocation : Relocation) : Plan :=
  let partition := relocation.partition
  match relocation.target with
  | none => plan.skip partition none .notInTarget
  | some host =>
    if (topology.liveSiteOn host partition).isSome then plan
    else
      match targetSite? topology plan.claimed host partition with
      | none => plan.skip partition (some host) .noTargetSite
      | some target =>
        match sourceSite? topology relocation.source host partition with
        | none => plan.skip partition (some host) .noSourceSite
        | some source =>
          let move : Move :=
            { partition
              sourceHost := source.host, sourceSite := source.id
              targetHost := host, targetSite := target.id }
          { plan with moves := plan.moves ++ [move] }

def make (current target : Placement) (topology : Topology) : Plan :=
  (current.movesTo target).foldl (add topology) {}

end Plan

end Rebalance
