import Rebalance.Telemetry.Record
import Rebalance.Workload.Profile
import Rebalance.Workload.Random

/-!
The generator of a synthetic workload. Each transaction is seen against the topology of its
moment: work on a site of the initiator's host takes the base latency, and each partition
served elsewhere adds one message over the network.
-/

namespace Rebalance

/-- A draw that has nothing to draw from. Whoever asks for it goes no further. -/
inductive DrawFault
  | noTickets
deriving DecidableEq, Inhabited

def DrawFault.message : DrawFault → String
  | noTickets => "cannot sample empty range"

structure Generator (σ : Type) where
  profile : Profile
  source : σ
  nextId : Nat := 1
  /-- The sum of all latencies so far, which times the messages. -/
  clock : Int := 0
deriving Inhabited

variable {σ : Type} [RandomSource σ]

namespace Procedure

def touch (procedure : Procedure) (source : σ) : List PartitionId × σ :=
  if procedure.isSingle then
    let (index, source) := RandomSource.below procedure.partitions.length source
    (procedure.partitions[index]?.toList, source)
  else (procedure.partitions, source)

/-- The host that the next transaction comes from, when `first` serves its first partition. -/
def initiate (procedure : Procedure) (hosts : List HostId) (first : HostId) (source : σ) :
    HostId × σ :=
  match procedure.initiator with
  | .follow => (first, source)
  | .home host affinity =>
    let (athome, source) := RandomSource.chance affinity source
    if athome then (host, source)
    else
      let (index, source) := RandomSource.below hosts.length source
      (hosts.getD index host, source)

end Procedure

namespace Generator

def new (profile : Profile) (source : σ) : Generator σ := { profile, source }

def generated (generator : Generator σ) : Nat := generator.nextId - 1

def initiatorSite (topology : Topology) (host : HostId) : SiteId :=
  (((topology.sitesOnHost host).find? (·.up)).map (·.id)).getD 0

def drawJitter (jitter : Int) (source : σ) : Int × σ :=
  if 0 < jitter then
    let (extra, source) := RandomSource.below (jitter.toNat + 1) source
    (extra, source)
  else (0, source)

def assemble (generator : Generator σ) (topology : Topology) (procedure : Procedure)
    (first : PartitionId × Site) (others : List (PartitionId × Site)) (source : σ) :
    Record × Generator σ :=
  let (host, source) := procedure.initiate topology.hosts.toList first.2.host source
  let site := initiatorSite topology host
  let network := generator.profile.networkLatency
  let remote := (first :: others).filter fun touched => touched.2.host != host
  let messages := remote.map fun touched =>
    { sender := site, receiver := touched.2.id
      sent := generator.clock, received := generator.clock + network : MessageTiming }
  let (jitter, source) := drawJitter generator.profile.jitter source
  let latency := procedure.baseLatency + messages.length * network + jitter
  let record : Record :=
    { txnId := generator.nextId
      procedure := procedure.name
      isSingle := procedure.isSingle
      partition := if procedure.isSingle then some first.1 else none
      initiatorHost := host
      initiatorSite := site
      coordinatorSite := if procedure.isSingle then first.2.id else site
      latency, messages }
  (record,
    { generator with
      source, nextId := generator.nextId + 1, clock := generator.clock + latency })

def locate (topology : Topology) (partition : PartitionId) : Option (PartitionId × Site) :=
  (topology.upSitesFor partition).head?.map fun site => (partition, site)

/-- The next record, where there are tickets to draw from. There is none where the topology has no
host or a partition to be touched is not served; the draws up to there are spent all the same. -/
def next (generator : Generator σ) (topology : Topology) : Option Record × Generator σ :=
  let (ticket, source) := RandomSource.ticket generator.profile.totalWeight generator.source
  match Profile.pick generator.profile.procedures ticket with
  | none => (none, { generator with source })
  | some procedure =>
    if topology.hosts.isEmpty then (none, { generator with source })
    else
      let (touched, source) := procedure.touch source
      match touched.mapM (locate topology) with
      | some (first :: others) =>
        let (record, generator) := generator.assemble topology procedure first others source
        (some record, generator)
      | _ => (none, { generator with source })

def nextOnto (topology : Topology) : Nat → List Record → Generator σ → List Record × Generator σ
  | 0, done, generator => (done, generator)
  | count + 1, done, generator =>
    let (record, generator) := generator.next topology
    nextOnto topology count (record.toList ++ done) generator

def nextMany (topology : Topology) (count : Nat) (generator : Generator σ) :
    List Record × Generator σ :=
  let (records, generator) := nextOnto topology count [] generator
  (records.reverse, generator)

def tryNext (generator : Generator σ) (topology : Topology) :
    Except DrawFault (Option Record × Generator σ) :=
  if generator.profile.totalWeight = 0 then throw .noTickets else pure (generator.next topology)

def tryNextMany (topology : Topology) (count : Nat) (generator : Generator σ) :
    Except DrawFault (List Record × Generator σ) :=
  if 0 < count ∧ generator.profile.totalWeight = 0 then throw .noTickets
  else pure (generator.nextMany topology count)

end Generator

end Rebalance
