import Mathlib.Data.List.Forall2
import Rebalance.Proofs.Cluster.Serving
import Rebalance.Workload.Generator

/-!
What the records of a generator say. Each stems from one procedure of the profile: all that it
touches is served, and each partition that is served on another host than the initiator's takes
one message, which goes to the lowest-numbered site that serves it.
-/

namespace Rebalance

def Procedure.touchedBy (procedure : Procedure) (record : Record) : List PartitionId :=
  if procedure.isSingle then record.partition.toList else procedure.partitions

/-- The partitions that a record of the procedure touches on other hosts than its initiator's. -/
def Procedure.remote (procedure : Procedure) (topology : Topology) (record : Record) :
    List PartitionId :=
  (procedure.touchedBy record).filter fun partition =>
    topology.placement.hostOf partition != some record.initiatorHost

/-- A message from the host over the network to the lowest-numbered site that serves the
partition, on another host. -/
structure MessageTiming.Reaches (topology : Topology) (network : Int) (host : HostId)
    (message : MessageTiming) (partition : PartitionId) : Prop where
  receiver : ∃ site, (topology.upSitesFor partition).head? = some site ∧
    message.receiver = site.id ∧ site.host ≠ host
  delay : message.received = message.sent + network

/-- A record that a transaction of the procedure leaves. -/
structure Record.Stems (topology : Topology) (network : Int) (procedure : Procedure)
    (record : Record) : Prop where
  name : record.procedure = procedure.name
  kind : record.isSingle = procedure.isSingle
  single : procedure.isSingle = true →
    ∃ partition ∈ procedure.partitions, record.partition = some partition
  multi : procedure.isSingle = false → record.partition = none
  served : ∀ partition ∈ procedure.touchedBy record,
    ∃ site, (topology.upSitesFor partition).head? = some site
  initiator : record.initiatorSite = Generator.initiatorSite topology record.initiatorHost
  coordinator : ∀ partition site, record.partition = some partition →
    (topology.upSitesFor partition).head? = some site → record.coordinatorSite = site.id
  coordinates : procedure.isSingle = false → record.coordinatorSite = record.initiatorSite
  messages : List.Forall₂ (MessageTiming.Reaches topology network record.initiatorHost)
    record.messages (procedure.remote topology record)

def Profile.Yields (profile : Profile) (topology : Topology) (record : Record) : Prop :=
  ∃ procedure ∈ profile.procedures, record.Stems topology profile.networkLatency procedure

theorem Profile.mem_of_pick {procedures : List Procedure} {ticket : Nat} {procedure : Procedure}
    (picked : Profile.pick procedures ticket = some procedure) : procedure ∈ procedures := by
  induction procedures generalizing ticket with
  | nil => cases picked
  | cons first rest ih =>
    rw [Profile.pick] at picked
    split at picked
    · cases picked
      exact List.mem_cons_self
    · exact List.mem_cons_of_mem _ (ih picked)

variable {σ : Type} [RandomSource σ]

namespace Generator

variable {topology : Topology} {partition : PartitionId} {partitions : List PartitionId}
variable {procedure : Procedure} {touched : PartitionId × Site} {placed : List (PartitionId × Site)}

def Located (topology : Topology) (placed : List (PartitionId × Site)) : Prop :=
  ∀ touched ∈ placed, (topology.upSitesFor touched.1).head? = some touched.2

theorem of_locate (located : locate topology partition = some touched) :
    partition = touched.1 ∧ (topology.upSitesFor touched.1).head? = some touched.2 := by
  obtain ⟨site, lowest, rfl⟩ := Option.map_eq_some_iff.1 located
  exact ⟨rfl, lowest⟩

theorem of_mapM_locate (found : partitions.mapM (locate topology) = some placed) :
    partitions = placed.map (·.1) ∧ Located topology placed := by
  induction partitions generalizing placed with
  | nil =>
    cases found
    exact ⟨rfl, fun _ member => absurd member List.not_mem_nil⟩
  | cons partition partitions ih =>
    rw [List.mapM_cons, Option.bind_eq_bind, Option.bind_eq_some_iff] at found
    obtain ⟨touched, here, later⟩ := found
    rw [Option.bind_eq_bind, Option.bind_eq_some_iff] at later
    obtain ⟨rest, others, same⟩ := later
    cases same
    obtain ⟨same, lowest⟩ := of_locate here
    obtain ⟨sameRest, located⟩ := ih others
    exact ⟨congrArg₂ List.cons same sameRest, List.forall_mem_cons.2 ⟨lowest, located⟩⟩

/-- What a procedure touches: one of its partitions, or all of them. -/
def Touches (procedure : Procedure) (partitions : List PartitionId) : Prop :=
  (procedure.isSingle = true → ∀ partition ∈ partitions,
    partition ∈ procedure.partitions ∧ partitions = [partition]) ∧
  (procedure.isSingle = false → partitions = procedure.partitions)

theorem touches_touch (procedure : Procedure) (source : σ) :
    Touches procedure (procedure.touch source).1 := by
  unfold Procedure.touch
  constructor
  · intro single partition touched
    rw [if_pos single] at touched ⊢
    have drawn := Option.mem_toList.1 touched
    exact ⟨List.mem_of_getElem? drawn, congrArg Option.toList drawn⟩
  · intro multi
    rw [if_neg (Bool.eq_false_iff.1 multi)]

section
variable (generator : Generator σ) (source : σ) {first : PartitionId × Site}
variable {others : List (PartitionId × Site)}
variable (touches : Touches procedure ((first :: others).map (·.1)))
include touches

theorem touchedBy_assemble :
    procedure.touchedBy (generator.assemble topology procedure first others source).1 =
      (first :: others).map (·.1) := by
  unfold Procedure.touchedBy
  split
  · next single =>
    have told : (generator.assemble topology procedure first others source).1.partition =
      some first.1 := if_pos single
    rw [told, (touches.1 single first.1 List.mem_cons_self).2]
    rfl
  · next multi => exact (touches.2 (Bool.eq_false_iff.2 multi)).symm

theorem messages_assemble (located : Located topology (first :: others)) :
    List.Forall₂ (MessageTiming.Reaches topology generator.profile.networkLatency
        (generator.assemble topology procedure first others source).1.initiatorHost)
      (generator.assemble topology procedure first others source).1.messages
      (procedure.remote topology
        (generator.assemble topology procedure first others source).1) := by
  have apart : ∀ touched ∈ first :: others, ((fun partition =>
      topology.placement.hostOf partition != some (generator.assemble topology procedure first
        others source).1.initiatorHost) ∘ (·.1)) touched =
      (touched.2.host !=
        (generator.assemble topology procedure first others source).1.initiatorHost) := by
    intro touched member
    rw [Function.comp_apply, Topology.hostOf_placement, located touched member, Option.map_some,
      bne, bne, Option.some_beq_some]
  rw [Procedure.remote, touchedBy_assemble generator source touches, List.filter_map,
    List.filter_congr apart]
  refine List.forall₂_map_left_iff.2 (List.forall₂_map_right_iff.2 (List.forall₂_same.2 ?_))
  intro touched member
  obtain ⟨known, differs⟩ := List.mem_filter.1 member
  exact ⟨⟨touched.2, located touched known, rfl, bne_iff_ne.1 differs⟩, rfl⟩

theorem stems_assemble (located : Located topology (first :: others)) :
    (generator.assemble topology procedure first others source).1.Stems topology
      generator.profile.networkLatency procedure where
  name := rfl
  kind := rfl
  single single := ⟨first.1, (touches.1 single first.1 List.mem_cons_self).1, if_pos single⟩
  multi multi := if_neg (Bool.eq_false_iff.1 multi)
  served partition touched := by
    rw [touchedBy_assemble generator source touches] at touched
    obtain ⟨found, member, rfl⟩ := List.mem_map.1 touched
    exact ⟨found.2, located found member⟩
  initiator := rfl
  coordinator partition site told lowest := by
    have single : procedure.isSingle = true := by
      by_contra multi
      cases (if_neg multi).symm.trans told
    cases (if_pos single).symm.trans told
    cases lowest.symm.trans (located first List.mem_cons_self)
    exact if_pos single
  coordinates multi := if_neg (Bool.eq_false_iff.1 multi)
  messages := messages_assemble generator source touches located

end

/-- An attempt yields a record of the profile or none, and the profile stays. -/
theorem yields_next (generator : Generator σ) (topology : Topology) :
    (∀ record ∈ (generator.next topology).1, generator.profile.Yields topology record) ∧
      (generator.next topology).2.profile = generator.profile := by
  -- An attempt may be given up at three points, with only the source of draws changed.
  have nothing (source : σ) :
      (∀ record ∈ (none : Option Record), generator.profile.Yields topology record) ∧
        ({ generator with source } : Generator σ).profile = generator.profile :=
    ⟨fun record made => absurd made.symm (Option.some_ne_none record), rfl⟩
  unfold next
  simp only
  split
  · exact nothing _
  · next procedure picked =>
    split
    · exact nothing _
    · split
      · next first others found =>
        obtain ⟨same, located⟩ := of_mapM_locate found
        have touches := touches_touch procedure
          (RandomSource.ticket generator.profile.totalWeight generator.source).2
        rw [same] at touches
        refine ⟨fun record made => ?_, rfl⟩
        cases made
        exact ⟨procedure, Profile.mem_of_pick picked,
          stems_assemble generator _ touches located⟩
      · exact nothing _

theorem yields_nextOnto (topology : Topology) (count : Nat) (records : List Record)
    (generator : Generator σ)
    (yield : ∀ record ∈ records, generator.profile.Yields topology record) :
    ∀ record ∈ (nextOnto topology count records generator).1,
      generator.profile.Yields topology record := by
  induction count generalizing records generator with
  | zero => exact yield
  | succ count ih =>
    obtain ⟨first, same⟩ := yields_next generator topology
    have later := ih ((generator.next topology).1.toList ++ records) (generator.next topology).2
    rw [same] at later
    refine later fun record member => ?_
    rcases List.mem_append.1 member with new | old
    · exact first record (Option.mem_toList.1 new)
    · exact yield record old

/-- Every record of a workload stems from one of the procedures in its profile. -/
theorem yields_nextMany (generator : Generator σ) (topology : Topology) (count : Nat) :
    ∀ record ∈ (generator.nextMany topology count).1,
      generator.profile.Yields topology record :=
  fun record member => yields_nextOnto topology count [] generator
    (fun _ none => absurd none List.not_mem_nil) record (List.mem_reverse.1 member)

end Generator

end Rebalance
