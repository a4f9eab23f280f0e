import Mathlib.Algebra.Ring.Int.Defs
import Mathlib.Algebra.Ring.Nat
import Mathlib.Data.List.Induction
import Rebalance.Proofs.Cluster.Layout
import Rebalance.Proofs.Workload.Generated

/-!
The stream of a generator, whatever is drawn and however the topology changes meanwhile. An
attempt fails for one of two reasons and then nothing is counted; otherwise its record takes the
next number, the time so far, and a latency made of the procedure's own, the messages' and some
jitter.
-/

namespace Rebalance

/-- What validation promises of a profile whose weights add up within 32 bits. -/
structure Profile.IsValid (profile : Profile) : Prop where
  weighted : 0 < profile.totalWeight
  filled : ∀ procedure ∈ profile.procedures, procedure.partitions ≠ []
  jitter : 0 ≤ profile.jitter

namespace Profile

def weightSum (profile : Profile) : Nat := (profile.procedures.map (·.weight)).sum

variable {profile : Profile} {procedures : List Procedure}

/-- To reduce a sum at each step comes to the same as to reduce it in the end. -/
theorem foldl_weight_eq (procedures : List Procedure) {modulus start : Nat}
    (reduced : start % modulus = start) :
    procedures.foldl (fun total procedure => (total + procedure.weight) % modulus) start =
      (start + (procedures.map (·.weight)).sum) % modulus := by
  induction procedures generalizing start with
  | nil => exact reduced.symm
  | cons procedure rest ih =>
    rw [List.foldl_cons, ih (Nat.mod_mod ..), Nat.mod_add_mod, List.map_cons, List.sum_cons,
      Nat.add_assoc]

theorem totalWeight_eq (profile : Profile) :
    profile.totalWeight = profile.weightSum % Nat.pow 2 32 := by
  rw [totalWeight, foldl_weight_eq _ rfl, Nat.zero_add, weightSum]

theorem totalWeight_le (profile : Profile) : profile.totalWeight ≤ profile.weightSum := by
  rw [totalWeight_eq]
  exact Nat.mod_le ..

theorem totalWeight_of_fits (fits : profile.weightSum < Nat.pow 2 32) :
    profile.totalWeight = profile.weightSum := by
  rw [totalWeight_eq, Nat.mod_eq_of_lt fits]

theorem partitions_ne_nil_of_validate {procedure : Procedure}
    (valid : procedure.validate = .ok ()) : procedure.partitions ≠ [] := by
  obtain ⟨filled, _⟩ := of_check valid
  exact fun none => filled (List.isEmpty_iff.2 none)

theorem validate_of_forM (valid : procedures.forM Procedure.validate = .ok ()) :
    ∀ procedure ∈ procedures, procedure.validate = .ok () := by
  induction procedures with
  | nil => exact List.forall_mem_nil _
  | cons procedure procedures ih =>
    rw [List.forM] at valid
    cases first : procedure.validate with
    | error error =>
      rw [first] at valid
      cases valid
    | ok =>
      rw [first] at valid
      exact List.forall_mem_cons.2 ⟨first, ih valid⟩

theorem isValid_of_validate (valid : profile.validate = .ok ())
    (fits : profile.weightSum < Nat.pow 2 32) : profile.IsValid := by
  obtain ⟨_, valid⟩ := of_check valid
  obtain ⟨weighted, valid⟩ := of_check valid
  cases each : profile.procedures.forM Procedure.validate with
  | error error =>
    rw [each] at valid
    cases valid
  | ok =>
    rw [each] at valid
    obtain ⟨_, valid⟩ := of_check valid
    obtain ⟨nonneg, _⟩ := of_check valid
    rw [Bool.not_eq_true', Bool.not_eq_false, List.any_eq_true] at weighted
    obtain ⟨procedure, member, positive⟩ := weighted
    refine ⟨?_, ?_, Int.not_lt.1 nonneg⟩
    · rw [totalWeight_of_fits fits, weightSum, List.sum_pos_iff_exists_pos_nat]
      exact ⟨procedure.weight, List.mem_map_of_mem member, of_decide_eq_true positive⟩
    · intro procedure member
      exact partitions_ne_nil_of_validate (validate_of_forM each procedure member)

/-- A ticket below the sum of the weights falls in some procedure's share. -/
theorem exists_pick {ticket : Nat} (below : ticket < (procedures.map (·.weight)).sum) :
    ∃ procedure, pick procedures ticket = some procedure := by
  induction procedures generalizing ticket with
  | nil => exact absurd below (Nat.not_lt_zero ticket)
  | cons procedure procedures ih =>
    rw [List.map_cons, List.sum_cons] at below
    rw [pick]
    split
    · exact ⟨procedure, rfl⟩
    · exact ih (by omega)

end Profile

variable {σ : Type} [RandomSource σ]

namespace Generator

variable {topology : Topology} {procedure : Procedure} {partitions touched : List PartitionId}
variable {generator : Generator σ} {partition : PartitionId}

/-- The procedure of the next attempt, in whose share of the weights the ticket falls, and the
partitions that it touches. -/
def attempted (generator : Generator σ) : Option (Procedure × List PartitionId) :=
  let drawn := RandomSource.ticket generator.profile.totalWeight generator.source
  (Profile.pick generator.profile.procedures drawn.1).map fun procedure =>
    (procedure, (procedure.touch drawn.2).1)

def attempt (state : List Record × Generator σ) (topology : Topology) :
    List Record × Generator σ :=
  (state.1 ++ (state.2.next topology).1.toList, (state.2.next topology).2)

def attempts (generator : Generator σ) (topologies : List Topology) :
    List Record × Generator σ := topologies.foldl attempt ([], generator)

def tryAttempt (state : List Record × Generator σ) (topology : Topology) :
    Except DrawFault (List Record × Generator σ) := do
  let (record, generator) ← state.2.tryNext topology
  pure (state.1 ++ record.toList, generator)

def tryAttempts (generator : Generator σ) (topologies : List Topology) :
    Except DrawFault (List Record × Generator σ) := topologies.foldlM tryAttempt ([], generator)

theorem tryNext_eq (weighted : 0 < generator.profile.totalWeight) (topology : Topology) :
    generator.tryNext topology = .ok (generator.next topology) :=
  if_neg (Nat.ne_of_gt weighted)

theorem foldlM_tryAttempt (weighted : 0 < generator.profile.totalWeight)
    (topologies : List Topology) (records : List Record) :
    topologies.foldlM tryAttempt (records, generator) =
      .ok (topologies.foldl attempt (records, generator)) := by
  induction topologies generalizing generator records with
  | nil => rfl
  | cons topology topologies ih =>
    have still := (generator.yields_next topology).2
    have tried : tryAttempt (records, generator) topology =
        .ok (attempt (records, generator) topology) := by
      unfold tryAttempt
      simp only [tryNext_eq weighted]
      rfl
    rw [List.foldlM_cons, tried, List.foldl_cons]
    exact ih (still.symm ▸ weighted) _

theorem tryAttempts_eq (weighted : 0 < generator.profile.totalWeight)
    (topologies : List Topology) :
    generator.tryAttempts topologies = .ok (generator.attempts topologies) :=
  foldlM_tryAttempt weighted topologies []

theorem reverse_nextOnto (topology : Topology) (count : Nat) (records : List Record)
    (generator : Generator σ) :
    let state := nextOnto topology count records generator
    (state.1.reverse, state.2) =
      (List.replicate count topology).foldl attempt (records.reverse, generator) := by
  induction count generalizing records generator with
  | zero => rfl
  | succ count ih =>
    refine (ih ((generator.next topology).1.toList ++ records) (generator.next topology).2).trans ?_
    rw [List.replicate_succ, List.foldl_cons, attempt, List.reverse_append]
    cases (generator.next topology).1 <;> rfl

theorem nextMany_eq_attempts (generator : Generator σ) (topology : Topology) (count : Nat) :
    generator.nextMany topology count = generator.attempts (List.replicate count topology) :=
  reverse_nextOnto topology count [] generator

/-- What makes many records at once breaks off where one attempt after the other would. -/
theorem tryNextMany_eq_tryAttempts (generator : Generator σ) (topology : Topology) (count : Nat) :
    generator.tryNextMany topology count =
      generator.tryAttempts (List.replicate count topology) := by
  unfold tryNextMany
  rcases Nat.eq_zero_or_pos generator.profile.totalWeight with none | weighted
  · cases count with
    | zero => rfl
    | succ count =>
      have broken : tryAttempt ([], generator) topology = .error .noTickets := by
        unfold tryAttempt tryNext
        rw [if_pos none]
        rfl
      rw [if_pos ⟨Nat.succ_pos count, none⟩, tryAttempts, List.replicate_succ, List.foldlM_cons,
        broken]
      rfl
  · rw [if_neg fun empty => Nat.ne_of_gt weighted empty.2, tryAttempts_eq weighted,
      ← nextMany_eq_attempts]
    rfl

def IsLacking (topology : Topology) (touched : List PartitionId) : Prop :=
  (∀ host, host ∉ topology.hosts) ∨
    ∃ partition ∈ touched, ∀ site, ¬ topology.Serves site partition

/-- What an attempt comes to that touches some partitions. -/
inductive ComesTo (generator : Generator σ) (topology : Topology) (procedure : Procedure)
    (touched : List PartitionId) : Option Record × Generator σ → Prop where
  | nothing (source : σ) (lacking : IsLacking topology touched) :
      ComesTo generator topology procedure touched (none, { generator with source })
  | record (first : PartitionId × Site) (others : List (PartitionId × Site)) (source : σ)
      {host : HostId} (hosted : host ∈ topology.hosts)
      (located : Located topology (first :: others)) (same : touched = (first :: others).map (·.1)) :
      ComesTo generator topology procedure touched
        (some (generator.assemble topology procedure first others source).1,
          (generator.assemble topology procedure first others source).2)

theorem upSitesFor_eq_nil_iff :
    topology.upSitesFor partition = [] ↔ ∀ site, ¬ topology.Serves site partition := by
  rw [List.eq_nil_iff_forall_not_mem]
  simp only [Topology.mem_upSitesFor]
  constructor
  · intro unlisted site serves
    obtain ⟨found, here⟩ := serves
    exact unlisted found ⟨site, here⟩
  · intro unserved found listed
    obtain ⟨site, here⟩ := listed
    exact unserved site ⟨found, here⟩

theorem mapM_locate_eq_none_iff :
    partitions.mapM (locate topology) = none ↔
      ∃ partition ∈ partitions, ∀ site, ¬ topology.Serves site partition := by
  induction partitions with
  | nil => simp
  | cons partition partitions ih =>
    have lost : locate topology partition = none ↔ ∀ site, ¬ topology.Serves site partition := by
      rw [locate, Option.map_eq_none_iff, List.head?_eq_none_iff, upSitesFor_eq_nil_iff]
    rw [List.mapM_cons, List.exists_mem_cons_iff, ← ih, ← lost]
    cases locate topology partition with
    | none => simp
    | some touched => cases partitions.mapM (locate topology) <;> simp

theorem touch_ne_nil (filled : procedure.partitions ≠ []) (source : σ) :
    (procedure.touch source).1 ≠ [] := by
  unfold Procedure.touch
  split
  · have below := RandomSource.below_lt source (List.length_pos_iff.2 filled)
    simp [List.getElem?_eq_getElem below]
  · exact filled

theorem drawJitter_bounds {jitter : Int} (nonneg : 0 ≤ jitter) (source : σ) :
    0 ≤ (drawJitter jitter source).1 ∧ (drawJitter jitter source).1 ≤ jitter := by
  unfold drawJitter
  split
  · have below : (RandomSource.below (jitter.toNat + 1) source).1 < jitter.toNat + 1 :=
      RandomSource.below_lt source (Nat.succ_pos _)
    simp only
    omega
  · exact ⟨Int.le_refl 0, nonneg⟩

/-- With a valid profile every attempt has a procedure and touches something. -/
theorem exists_attempted (valid : generator.profile.IsValid) :
    ∃ procedure ∈ generator.profile.procedures, ∃ touched, touched ≠ [] ∧
      Touches procedure touched ∧ generator.attempted = some (procedure, touched) := by
  have drawn := RandomSource.ticket_lt generator.source valid.weighted
  have below := Nat.lt_of_lt_of_le drawn generator.profile.totalWeight_le
  obtain ⟨procedure, picked⟩ := Profile.exists_pick below
  have member := Profile.mem_of_pick picked
  refine ⟨procedure, member, _, touch_ne_nil (valid.filled procedure member) _,
    touches_touch procedure (RandomSource.ticket generator.profile.totalWeight generator.source).2,
    ?_⟩
  rw [attempted, picked, Option.map_some]

theorem comesTo_next (drawn : generator.attempted = some (procedure, touched))
    (filled : touched ≠ []) :
    ComesTo generator topology procedure touched (generator.next topology) := by
  obtain ⟨picked, found, same⟩ := Option.map_eq_some_iff.1 drawn
  cases same
  unfold next
  simp only [found]
  split
  · next bare =>
    exact .nothing _ (.inl (List.eq_nil_iff_forall_not_mem.1 (List.isEmpty_iff.1 bare)))
  · next hosted =>
    obtain ⟨host, known⟩ := List.isEmpty_eq_false_iff_exists_mem.1 (Bool.eq_false_iff.2 hosted)
    split
    · next first others placed =>
      obtain ⟨same, located⟩ := of_mapM_locate placed
      exact .record first others _ known located same
    · next failed =>
      refine .nothing _ (.inr (mapM_locate_eq_none_iff.1 ?_))
      -- something is touched, so it is not an empty row that was located
      rw [Option.eq_none_iff_forall_ne_some]
      intro placed found
      obtain ⟨same, _⟩ := of_mapM_locate found
      cases placed with
      | nil => exact filled same
      | cons first others => exact failed first others found

theorem not_isLacking {first : PartitionId × Site} {others : List (PartitionId × Site)}
    {host : HostId} (hosted : host ∈ topology.hosts) (located : Located topology (first :: others)) :
    ¬ IsLacking topology ((first :: others).map (·.1)) := by
  intro lacking
  rcases lacking with bare | ⟨partition, member, unserved⟩
  · exact bare host hosted
  · obtain ⟨touched, listed, rfl⟩ := List.mem_map.1 member
    have lowest := located touched listed
    rw [upSitesFor_eq_nil_iff.2 unserved] at lowest
    cases lowest

/-- What a record says that was made after some others, from a procedure that touches some
partitions. -/
structure Follows (profile : Profile) (topology : Topology) (earlier : List Record)
    (procedure : Procedure) (touched : List PartitionId) (record : Record) : Prop where
  name : record.procedure = procedure.name
  about : procedure.touchedBy record = touched
  txnId : record.txnId = earlier.length + 1
  latency : ∃ jitter, 0 ≤ jitter ∧ jitter ≤ profile.jitter ∧
    record.latency =
      procedure.baseLatency + profile.networkLatency * record.messages.length + jitter
  messages : List.Forall₂
    (MessageTiming.Reaches topology profile.networkLatency record.initiatorHost) record.messages
    (touched.filter fun partition =>
      topology.placement.hostOf partition != some record.initiatorHost)
  sent : ∀ message ∈ record.messages, message.sent = (earlier.map (·.latency)).sum

structure Made (profile : Profile) (records : List Record) (generator : Generator σ) : Prop where
  profile : generator.profile = profile
  numbers : records.map (·.txnId) = List.range' 1 records.length
  nextId : generator.nextId = records.length + 1
  clock : generator.clock = (records.map (·.latency)).sum

theorem follows_assemble {profile : Profile} {records : List Record}
    (made : Made profile records generator) (valid : profile.IsValid)
    {first : PartitionId × Site} {others : List (PartitionId × Site)} (source : σ)
    (touches : Touches procedure ((first :: others).map (·.1)))
    (located : Located topology (first :: others)) :
    Follows profile topology records procedure ((first :: others).map (·.1))
      (generator.assemble topology procedure first others source).1 where
  name := rfl
  about := touchedBy_assemble generator source touches
  txnId := made.nextId
  latency := by
    have bounds := drawJitter_bounds valid.jitter
      (procedure.initiate topology.hosts.toList first.2.host source).2
    refine ⟨_, bounds.1, bounds.2, ?_⟩
    rw [← made.profile, Int.mul_comm]
    rfl
  messages := by
    have reaches := messages_assemble generator source touches located
    rw [Procedure.remote, touchedBy_assemble generator source touches, made.profile] at reaches
    exact reaches
  sent message listed := by
    obtain ⟨touched, _, rfl⟩ := List.mem_map.1 listed
    exact made.clock

section
variable {profile : Profile} {records : List Record}

/-- One more record has the next number and moves the clock on by its latency. -/
theorem Made.assemble (made : Made profile records generator)
    (first : PartitionId × Site) (others : List (PartitionId × Site)) (source : σ) :
    Made profile
      (records ++ [(generator.assemble topology procedure first others source).1])
      (generator.assemble topology procedure first others source).2 where
  profile := made.profile
  numbers := by
    have numbered : (generator.assemble topology procedure first others source).1.txnId =
        1 + records.length := made.nextId.trans (Nat.add_comm _ _)
    rw [List.map_append, made.numbers, List.map_singleton, numbered, List.length_append,
      List.length_singleton, List.range'_1_concat]
  nextId := by
    rw [List.length_append]
    exact congrArg (· + 1) made.nextId
  clock := by
    rw [List.map_append, List.sum_append, ← made.clock]
    simp [Generator.assemble]

/-- What one attempt leaves. -/
theorem made_attempt (made : Made profile records generator) (valid : profile.IsValid)
    (topology : Topology) :
    Made profile (attempt (records, generator) topology).1
      (attempt (records, generator) topology).2 := by
  obtain ⟨procedure, _, touched, filled, _, drawn⟩ := exists_attempted (made.profile ▸ valid)
  have comes : ComesTo generator topology procedure touched _ := comesTo_next drawn filled
  unfold attempt
  generalize generator.next topology = next at comes
  cases comes with
  | nothing source lacking =>
    simp only [Option.toList_none, List.append_nil]
    exact ⟨made.profile, made.numbers, made.nextId, made.clock⟩
  | record first others source hosted located same => exact made.assemble first others source

theorem made_attempts (valid : profile.IsValid) (source : σ) (topologies : List Topology) :
    Made profile ((new profile source).attempts topologies).1
      ((new profile source).attempts topologies).2 :=
  List.foldlRecOn topologies attempt (motive := fun state => Made profile state.1 state.2)
    ⟨rfl, rfl, rfl, rfl⟩ fun _ made topology _ => made_attempt made valid topology

theorem Made.next (made : Made profile records generator) (valid : profile.IsValid)
    (topology : Topology) :
    ∃ procedure ∈ profile.procedures, ∃ touched, touched ≠ [] ∧ Touches procedure touched ∧
      generator.attempted = some (procedure, touched) ∧
      ((generator.next topology).1 = none ↔ IsLacking topology touched) ∧
      ((generator.next topology).1 = none →
        (generator.next topology).2.nextId = generator.nextId ∧
          (generator.next topology).2.clock = generator.clock) ∧
      ∀ record, (generator.next topology).1 = some record →
        Follows profile topology records procedure touched record := by
  obtain ⟨procedure, offered, touched, filled, touches, drawn⟩ :=
    exists_attempted (made.profile ▸ valid)
  have comes : ComesTo generator topology procedure touched _ := comesTo_next drawn filled
  refine ⟨procedure, made.profile ▸ offered, touched, filled, touches, drawn, ?_⟩
  generalize generator.next topology = next at comes
  cases comes with
  | nothing source lacking => exact ⟨iff_of_true rfl lacking, fun _ => ⟨rfl, rfl⟩, nofun⟩
  | record first others source hosted located same =>
    subst same
    refine ⟨iff_of_false nofun (not_isLacking hosted located), nofun, fun record same => ?_⟩
    cases same
    exact follows_assemble made valid source touches located

/-- With weights that add up within 32 bits no attempt breaks off; many at once are one after the
other. The records have the numbers from 1 on, whatever the topologies were. The next attempt
fails just if there is no host or a partition that it touches is not served, which leaves the
number and the clock; a record that it makes follows the earlier ones. -/
theorem stream_of_valid (valid : profile.validate = .ok ())
    (fits : profile.weightSum < Nat.pow 2 32) (source : σ) (topologies : List Topology)
    (topology : Topology) :
    ∃ state next, (new profile source).tryAttempts topologies = .ok state ∧
      state.2.tryNext topology = .ok next ∧
      (∀ count, state.2.tryNextMany topology count =
        state.2.tryAttempts (List.replicate count topology)) ∧
      state.1.map (·.txnId) = List.range' 1 state.1.length ∧
      state.2.generated = state.1.length ∧
      ∃ procedure ∈ profile.procedures, ∃ touched, touched ≠ [] ∧ Touches procedure touched ∧
        state.2.attempted = some (procedure, touched) ∧
        (next.1 = none ↔ IsLacking topology touched) ∧
        (next.1 = none → next.2.nextId = state.2.nextId ∧ next.2.clock = state.2.clock) ∧
        ∀ record, next.1 = some record →
          Follows profile topology state.1 procedure touched record := by
  have sound := Profile.isValid_of_validate valid fits
  have made := made_attempts sound source topologies
  have weighted : 0 < (new profile source).profile.totalWeight := sound.weighted
  have still : 0 < ((new profile source).attempts topologies).2.profile.totalWeight :=
    made.profile.symm ▸ weighted
  exact ⟨_, _, tryAttempts_eq weighted topologies, tryNext_eq still topology,
    tryNextMany_eq_tryAttempts _ topology, made.numbers, congrArg (· - 1) made.nextId,
    made.next sound topology⟩

/-- The second attempt finds no host and the third does not find partition 202 served. -/
theorem stream_of_valid_lacking :
    let look : Procedure :=
      { name := "look", weight := 4, partitions := [101, 202], isSingle := true
        initiator := .home 100 1.0, baseLatency := 500 }
    let order : Procedure :=
      { name := "order", weight := 1, partitions := [101, 201, 202], isSingle := false
        initiator := .follow, baseLatency := 900 }
    let profile : Profile := { procedures := [look, order], networkLatency := 10, jitter := 30 }
    let served : Topology :=
      .new [100, 200] [⟨1, 100, some 101, true⟩, ⟨2, 200, some 201, true⟩,
        ⟨3, 200, some 202, true⟩, ⟨4, 100, some 202, true⟩]
    let lacking := (served.setUp 3 false).setUp 4 false
    let topologies := [served, .new [] [], lacking, served.setUp 3 false]
    let generator := new profile (Xoshiro.ofSeed 1)
    profile.validate = .ok () ∧ profile.weightSum < Nat.pow 2 32 ∧
      ∃ state next, generator.tryAttempts topologies = .ok state ∧
        state.2.tryNext served = .ok next ∧ state.1.map (·.latency) = [505, 928] ∧
        next.1.map (fun record => record.messages.map (·.sent)) = some [1433] ∧
        state.1.map (·.txnId) = List.range' 1 state.1.length ∧
        state.2.generated = state.1.length ∧
        ∃ procedure ∈ profile.procedures, ∃ touched, ∀ record, next.1 = some record →
          Follows profile served state.1 procedure touched record := by
  intro look order profile served lacking topologies generator
  have valid : profile.validate = .ok () := rfl
  have fits : profile.weightSum < Nat.pow 2 32 := by decide
  obtain ⟨state, next, tried, triedNext, _, numbers, generated, procedure, offered, touched, _, _,
    _, _, _, follows⟩ := stream_of_valid valid fits (Xoshiro.ofSeed 1) topologies served
  have latencies : (generator.attempts topologies).1.map (·.latency) = [505, 928] := by
    decide +kernel
  have sent : ((generator.attempts topologies).2.next served).1.map
      (fun record => record.messages.map (·.sent)) = some [1433] := by decide +kernel
  have weighted : 0 < generator.profile.totalWeight := by decide
  have still : 0 < (generator.attempts topologies).2.profile.totalWeight := by decide +kernel
  have reached := Except.ok.inj ((tryAttempts_eq weighted topologies).symm.trans tried)
  rw [reached] at latencies sent still
  have made := Except.ok.inj ((tryNext_eq still served).symm.trans triedNext)
  rw [made] at sent
  exact ⟨valid, fits, state, next, tried, triedNext, latencies, sent, numbers, generated,
    procedure, offered, touched, follows⟩

/-- Two valid weights whose sum is one past 32 bits leave nothing to draw from. The partition is
served all the same. -/
theorem tryNext_without_tickets :
    let pay : Procedure :=
      { name := "pay", weight := 2147483648, partitions := [101], isSingle := true
        initiator := .follow, baseLatency := 500 }
    let profile : Profile := { procedures := [pay, pay], networkLatency := 0, jitter := 0 }
    let served : Topology := .new [100] [⟨1, 100, some 101, true⟩]
    profile.validate = .ok () ∧ profile.weightSum = Nat.pow 2 32 ∧ ¬ IsLacking served [101] ∧
      (new profile (Xoshiro.ofSeed 1)).tryNext served = .error .noTickets := by
  intro pay profile served
  have located : Located served [(101, ⟨1, 100, some 101, true⟩)] :=
    List.forall_mem_singleton.2 rfl
  have hosted : (100 : HostId) ∈ served.hosts := by decide
  have tickets : profile.totalWeight = 0 := by decide
  exact ⟨rfl, by decide, not_isLacking hosted located, if_pos tickets⟩

end

end Generator

end Rebalance
