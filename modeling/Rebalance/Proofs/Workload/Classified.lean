import Rebalance.Proofs.Cluster.Layout
import Rebalance.Proofs.Sample.Penalties
import Rebalance.Proofs.Telemetry.Replay
import Rebalance.Proofs.Workload.Generated

/-!
The records of a generator, replayed against the topology that they were generated against. Each
is classified as it was made, and each message is charged to the partition that it was made for.
-/

namespace Rebalance

variable {topology : Topology} {network : Int} {procedure : Procedure} {record : Record}
variable {partition : PartitionId}

/-- A record that is seen as it was made. Work on one partition is near exactly if it takes no
message, which is if the lowest-numbered site that serves the partition is on the initiator's
host; other work is near if that host has an up site. Each message is charged, with the latency
of the network, to the partition that it was made for. -/
structure Record.IsClassified (topology : Topology) (network : Int) (procedure : Procedure)
    (record : Record) : Prop where
  stems : record.Stems topology network procedure
  single : ∀ partition, record.isSingle = true → record.partition = some partition →
    (record.locality topology = .near ↔ record.messages = []) ∧
      (record.locality topology = .near ↔
        ∃ site found, topology.site? site = some found ∧ found.host = record.initiatorHost ∧
          topology.Serves site partition ∧
            ∀ other, topology.Serves other partition → site ≤ other)
  multi : record.isSingle = false → topology.site? 0 = none →
    (record.locality topology = .near ↔
      ∃ site found, topology.site? site = some found ∧ found.host = record.initiatorHost ∧
        found.up = true)
  charges : List.Forall₂ (fun message partition =>
      message.charge? record.initiatorHost topology = some (partition, network))
    record.messages (procedure.remote topology record)
  penalties : ∀ partition, latenciesOf partition (record.charges topology) =
    List.replicate ((procedure.remote topology record).count partition) (max 1 network).toNat

theorem clockDifference_add {earlier : Int} (nonneg : 0 ≤ network) (word : network < Int.pow 2 63) :
    clockDifference (earlier + network) earlier = network := by
  have least : -(Int.pow 2 63) ≤ network := Int.le_trans (by decide) nonneg
  unfold clockDifference
  omega

theorem Topology.IsKeyed.of_head?_upSitesFor (keyed : topology.IsKeyed) {site : Site}
    (lowest : (topology.upSitesFor partition).head? = some site) :
    topology.site? site.id = some site ∧ site.partition = some partition := by
  obtain ⟨here, ⟨found, there, _, held⟩, _⟩ := keyed.head?_upSitesFor_iff.1 lowest
  cases here.symm.trans there
  exact ⟨here, held⟩

theorem MessageTiming.Reaches.charge? {host : HostId} {message : MessageTiming}
    (reaches : message.Reaches topology network host partition) (keyed : topology.IsKeyed)
    (nonneg : 0 ≤ network) (word : network < Int.pow 2 63) :
    message.charge? host topology = some (partition, network) := by
  obtain ⟨⟨site, lowest, receiver, apart⟩, delay⟩ := reaches
  obtain ⟨here, held⟩ := keyed.of_head?_upSitesFor lowest
  unfold MessageTiming.charge?
  rw [receiver, here, delay]
  simp only [if_neg apart, held, Option.map_some, clockDifference_add nonneg word]

theorem charges_of_forall₂ {host : HostId} {messages : List MessageTiming}
    {partitions : List PartitionId}
    (charged : List.Forall₂ (fun message partition =>
      message.charge? host topology = some (partition, network)) messages partitions) :
    messages.filterMap (·.charge? host topology) = partitions.map fun partition =>
      (partition, network) := by
  induction charged with
  | nil => rfl
  | cons first _ ih => simp only [List.filterMap_cons, first, ih, List.map_cons]

theorem latenciesOf_map (partition : PartitionId) (partitions : List PartitionId) (ns : Int) :
    latenciesOf partition (partitions.map fun known => (known, ns)) =
      List.replicate (partitions.count partition) (Latency.clamp ns) := by
  rw [latenciesOf, List.filter_map, List.map_map]
  have alike : partitions.filter ((fun charge : PartitionId × Int =>
      decide (charge.1 = partition)) ∘ fun known => (known, ns)) =
        List.replicate (partitions.count partition) partition := List.filter_eq partition
  rw [alike, List.map_replicate]
  rfl

/-- An initiator's site is on its host exactly if the host has an up site. -/
theorem Topology.IsKeyed.hostOfSite_initiatorSite (keyed : topology.IsKeyed)
    (unused : topology.site? 0 = none) (host : HostId) :
    topology.hostOfSite (Generator.initiatorSite topology host) = some host ↔
      ∃ site found, topology.site? site = some found ∧ found.host = host ∧ found.up = true := by
  unfold Generator.initiatorSite
  cases sought : (topology.sitesOnHost host).find? (·.up) with
  | none =>
    have absent : topology.hostOfSite 0 = none := by
      rw [Topology.hostOfSite, unused, Option.map_none]
    refine iff_of_false ?_ fun found => ?_
    · change topology.hostOfSite 0 ≠ some host
      rw [absent]
      exact (Option.some_ne_none host).symm
    · obtain ⟨site, found, here, on, up⟩ := found
      have listed : found ∈ topology.sitesOnHost host :=
        List.mem_filter.2 ⟨Topology.mem_siteList.2 ⟨site, here⟩, decide_eq_true on⟩
      exact List.find?_eq_none.1 sought found listed up
  | some found =>
    have up := List.find?_some sought
    obtain ⟨listed, on⟩ := List.mem_filter.1 (List.mem_of_find?_eq_some sought)
    obtain ⟨site, here⟩ := Topology.mem_siteList.1 listed
    obtain rfl := keyed site found here
    have told : topology.hostOfSite found.id = some found.host := by
      rw [Topology.hostOfSite, here, Option.map_some]
    rw [of_decide_eq_true on] at told
    exact iff_of_true told ⟨found.id, found, here, of_decide_eq_true on, up⟩

namespace Record.Stems

theorem isSome_key? (stems : record.Stems topology network procedure) :
    record.key?.isSome = true := by
  unfold Record.key?
  rw [stems.kind]
  split
  · next single =>
    obtain ⟨partition, _, told⟩ := stems.single single
    rw [told]
    rfl
  · rfl

/-- The lowest-numbered site of a single partition, and what else is told of its record. -/
theorem near_iff_of_single (stems : record.Stems topology network procedure)
    (keyed : topology.IsKeyed) (single : record.isSingle = true)
    (told : record.partition = some partition) :
    (record.locality topology = .near ↔ record.messages = []) ∧
      (record.locality topology = .near ↔
        topology.placement.hostOf partition = some record.initiatorHost) := by
  have touched : procedure.touchedBy record = [partition] := by
    rw [Procedure.touchedBy, if_pos (stems.kind.symm.trans single), told]
    rfl
  obtain ⟨site, lowest⟩ := stems.served partition (touched ▸ List.mem_cons_self)
  have placed : topology.placement.hostOf partition = some site.host := by
    rw [topology.hostOf_placement, lowest]
    rfl
  have near : record.locality topology = .near ↔ site.host = record.initiatorHost := by
    have known : topology.hostOfSite site.id = some site.host := by
      rw [Topology.hostOfSite, (keyed.of_head?_upSitesFor lowest).1, Option.map_some]
    rw [Record.locality_eq_near, stems.coordinator partition site told lowest, known,
      Option.some.injEq]
  have quiet : record.messages = [] ↔ procedure.remote topology record = [] := by
    rw [← List.length_eq_zero_iff, stems.messages.length_eq, List.length_eq_zero_iff]
  constructor
  · rw [near, quiet, Procedure.remote, touched, List.filter_eq_nil_iff, List.forall_mem_singleton,
      placed]
    simp
  · rw [near, placed, Option.some.injEq]

theorem forall₂_charge? (stems : record.Stems topology network procedure)
    (keyed : topology.IsKeyed) (nonneg : 0 ≤ network) (word : network < Int.pow 2 63) :
    List.Forall₂ (fun message partition =>
        message.charge? record.initiatorHost topology = some (partition, network))
      record.messages (procedure.remote topology record) :=
  stems.messages.imp fun _ _ reaches => reaches.charge? keyed nonneg word

theorem isClassified (stems : record.Stems topology network procedure)
    (keyed : topology.IsKeyed) (nonneg : 0 ≤ network) (word : network < Int.pow 2 63) :
    record.IsClassified topology network procedure where
  stems := stems
  single partition single told := by
    obtain ⟨quiet, placed⟩ := stems.near_iff_of_single keyed single told
    exact ⟨quiet, placed.trans keyed.hostOf_placement_iff⟩
  multi multi unused := by
    rw [Record.locality_eq_near, stems.coordinates (stems.kind.symm.trans multi), stems.initiator,
      keyed.hostOfSite_initiatorSite unused]
  charges := stems.forall₂_charge? keyed nonneg word
  penalties partition := by
    rw [Record.charges, charges_of_forall₂ (stems.forall₂_charge? keyed nonneg word),
      latenciesOf_map, Latency.clamp, Int.max_comm]

theorem length_charges (stems : record.Stems topology network procedure)
    (keyed : topology.IsKeyed) (nonneg : 0 ≤ network) (word : network < Int.pow 2 63) :
    (record.charges topology).length = record.messages.length := by
  rw [Record.charges, charges_of_forall₂ (stems.forall₂_charge? keyed nonneg word),
    List.length_map, stems.messages.length_eq]

end Record.Stems

/-- Replayed against the topology that they were generated against, the records of a workload are
all well formed and classified as they were made. All of their messages are charged: what a
record adds under its key to the latencies of a partition is the network's latency, or one
nanosecond if that is zero, once for each of its messages to that partition. -/
theorem Generator.replay_nextMany {σ : Type} [RandomSource σ] (generator : Generator σ)
    (keyed : topology.IsKeyed) (nonneg : 0 ≤ generator.profile.networkLatency)
    (word : generator.profile.networkLatency < Int.pow 2 63) (count : Nat) (sample : Sample) :
    let records := (generator.nextMany topology count).1
    let replayed := replayRecords records sample topology
    replayed.1.malformed = 0 ∧ replayed.1.near + replayed.1.far = records.length ∧
      replayed.1.near = records.countP (·.locality topology = .near) ∧
      replayed.1.partitionLatencies = (records.map (·.messages.length)).sum ∧
      (∀ record ∈ records, ∃ procedure ∈ generator.profile.procedures,
        record.IsClassified topology generator.profile.networkLatency procedure) ∧
      ∀ key partition, replayed.2.penaltySamples key partition =
        sample.penaltySamples key partition ++
          (records.filter (·.key? = some key)).flatMap fun record =>
            latenciesOf partition (record.charges topology) := by
  intro records replayed
  have yield := generator.yields_nextMany topology count
  have known (record : Record) (member : record ∈ records) : record.key?.isSome = true := by
    obtain ⟨_, _, stems⟩ := yield record member
    exact stems.isSome_key?
  have counts : replayed.1 = _ := (stats_foldl_replayRecord topology records ({}, sample)).trans
    (ReplayStats.foldl_take topology records known {})
  have charged : records.map (fun record => (record.charges topology).length) =
      records.map (·.messages.length) := by
    refine List.map_congr_left fun record member => ?_
    obtain ⟨_, _, stems⟩ := yield record member
    exact stems.length_charges keyed nonneg word
  rw [counts]
  refine ⟨rfl, ?_, Nat.zero_add (records.countP _), ?_, fun record member => ?_,
    fun key partition => ?_⟩
  · rw [Nat.zero_add, Nat.zero_add]
    exact countP_near_add_countP_far topology records
  · exact (Nat.zero_add _).trans (congrArg List.sum charged)
  · obtain ⟨procedure, offered, stems⟩ := yield record member
    exact ⟨procedure, offered, stems.isClassified keyed nonneg word⟩
  · exact penaltySamples_replayRecords records sample topology key partition

/-- A procedure on one partition that is called from host 100 wherever the partition is, and one
on three partitions that is called from the host of the first. -/
theorem Generator.replay_nextMany_drawn :
    let topology : Topology :=
      .new [100, 200] [⟨1, 100, some 101, true⟩, ⟨2, 200, some 201, true⟩,
        ⟨3, 200, some 202, true⟩, ⟨4, 100, some 202, true⟩]
    let look : Procedure :=
      { name := "look", weight := 4, partitions := [101, 202], isSingle := true
        initiator := .home 100 1.0, baseLatency := 500 }
    let order : Procedure :=
      { name := "order", weight := 1, partitions := [101, 201, 202], isSingle := false
        initiator := .follow, baseLatency := 900 }
    let generator : Generator Xoshiro :=
      .new { procedures := [look, order], networkLatency := 0, jitter := 30 } (.ofSeed 6)
    topology.IsKeyed ∧ 0 ≤ generator.profile.networkLatency ∧
      generator.profile.networkLatency < Int.pow 2 63 ∧
      (generator.nextMany topology 4).1.map (·.messages.length) = [2, 1, 0, 0] ∧
      let records := (generator.nextMany topology 4).1
      let replayed := replayRecords records (.new 2) topology
      replayed.1.malformed = 0 ∧ replayed.1.near + replayed.1.far = records.length ∧
        replayed.1.near = records.countP (·.locality topology = .near) ∧
        replayed.1.partitionLatencies = (records.map (·.messages.length)).sum ∧
        (∀ record ∈ records, ∃ procedure ∈ generator.profile.procedures,
          record.IsClassified topology generator.profile.networkLatency procedure) ∧
        ∀ key partition, replayed.2.penaltySamples key partition =
          (Sample.new 2).penaltySamples key partition ++
            (records.filter (·.key? = some key)).flatMap fun record =>
              latenciesOf partition (record.charges topology) := by
  intro topology look order generator
  have keyed : topology.IsKeyed := Topology.isKeyed_new _ _
  have nonneg : 0 ≤ generator.profile.networkLatency := Int.le_refl 0
  have word : generator.profile.networkLatency < Int.pow 2 63 :=
    show (0 : Int) < Int.pow 2 63 by decide
  have drawn : (generator.nextMany topology 4).1.map (·.messages.length) = [2, 1, 0, 0] := by
    decide +kernel
  exact ⟨keyed, nonneg, word, drawn, generator.replay_nextMany keyed nonneg word 4 (.new 2)⟩

end Rebalance
