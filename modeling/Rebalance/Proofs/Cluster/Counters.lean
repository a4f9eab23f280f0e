import Rebalance.Proofs.Cluster.Interleaved
import Rebalance.Proofs.Migration.Acknowledgements

/-!
The counters of a simulated cluster. Each copy that was started is under way or has finished,
and each that has finished was acknowledged; a run's moves are counted as they are taken, and its
sources as they fail. Meanwhile no site changes its host.
-/

namespace Rebalance

/-- The moves of a run come from different sites, which the topology knows under their hosts. -/
structure Run.IsSourced (run : Run) (topology : Topology) : Prop where
  known : ∀ move ∈ run.moves, topology.hostOfSite move.sourceSite = some move.sourceHost
  distinct : (run.moves.map (·.sourceSite)).Nodup

namespace Run.IsSourced

variable {run other : Run} {topology after : Topology}

theorem congr (sourced : run.IsSourced topology) (same : other.moves.Perm run.moves)
    (hosts : ∀ site, after.hostOfSite site = topology.hostOfSite site) : other.IsSourced after where
  known move member := (hosts _).trans (sourced.known move (same.subset member))
  distinct := ((same.map _).nodup_iff).2 sourced.distinct

theorem hostOfSite_of_mem (sourced : run.IsSourced topology) {source : HostId × SiteId}
    (listed : source ∈ run.sources) : topology.hostOfSite source.2 = some source.1 := by
  obtain ⟨move, member, host, site⟩ := mem_sources.1 listed
  rw [← host, ← site]
  exact sourced.known move (List.mem_append_right _ member)

theorem length_sources (sourced : run.IsSourced topology) :
    run.sources.length = run.completed.length := by
  have sites : (run.completed.map (·.sourceSite)).Nodup :=
    sourced.distinct.sublist ((List.sublist_append_right ..).map _)
  have pairs : (run.completed.map fun move => (move.sourceHost, move.sourceSite)).Nodup := by
    apply List.Nodup.of_map Prod.snd
    rwa [List.map_map]
  have same :
      run.sources.Perm (run.completed.map fun move => (move.sourceHost, move.sourceSite)) := by
    refine (List.perm_ext_iff_of_nodup run.nodup_sources pairs).2 fun source => ?_
    rw [mem_sources, List.mem_map]
    exact exists_congr fun move => and_congr_right fun _ => by rw [Prod.ext_iff]
  rw [same.length_eq, List.length_map]

end Run.IsSourced

/-- Moves of different partitions come from different sites, for a site serves one partition. -/
theorem Plan.IsJoint.sources {topology : Topology} {moves : List Move}
    (joint : Plan.IsJoint topology moves) : (moves.map (·.sourceSite)).Nodup := by
  have apart := List.pairwise_map.1 joint.partitions
  refine List.pairwise_map.2 (apart.imp_of_mem fun {move other} member memberToo differ same => ?_)
  obtain ⟨found, here, _, _, held⟩ := (joint.feasible move member).source
  obtain ⟨foundToo, there, _, _, heldToo⟩ := (joint.feasible other memberToo).source
  rw [same, there] at here
  cases here
  exact differ (Option.some.inj (held.symm.trans heldToo))

theorem Run.isSourced_of_isJoint {run : Run} {topology : Topology} {moves : List Move}
    (joint : Plan.IsJoint topology moves) (same : run.moves.Perm moves) :
    run.IsSourced topology where
  known move member := by
    obtain ⟨found, here, host, _⟩ := (joint.feasible move (same.subset member)).source
    rw [Topology.hostOfSite, here, Option.map_some, host]
  distinct := ((same.map _).nodup_iff).2 joint.sources

namespace InterleavedCluster

/-- What can become of a cluster while so many moves are started and so many sites fail. -/
structure Becomes (before : InterleavedCluster) (starts fails : Nat)
    (after : InterleavedCluster) : Prop where
  addresses : ∀ site,
    after.cluster.topology.address? site = before.cluster.topology.address? site
  started : after.cluster.movesStarted = before.cluster.movesStarted + starts
  /-- A copy that is no longer under way has finished. -/
  copies : after.cluster.movesFinished + after.cluster.copies.length =
    before.cluster.movesFinished + before.cluster.copies.length + starts
  /-- What has finished is acknowledged. -/
  acks : before.acks.length + after.cluster.movesFinished =
    after.acks.length + before.cluster.movesFinished
  failed : after.cluster.sitesFailed = before.cluster.sitesFailed + fails

variable {before middle after : InterleavedCluster} {starts fails more further : Nat}

theorem Becomes.refl (interleaved : InterleavedCluster) : Becomes interleaved 0 0 interleaved :=
  ⟨fun _ => rfl, rfl, rfl, rfl, rfl⟩

theorem Becomes.trans (first : Becomes before starts fails middle)
    (second : Becomes middle more further after) :
    Becomes before (starts + more) (fails + further) after where
  addresses site := (second.addresses site).trans (first.addresses site)
  started := by rw [second.started, first.started, Nat.add_assoc]
  copies := by rw [second.copies, first.copies, Nat.add_assoc]
  acks := by
    have sent := first.acks
    have sentToo := second.acks
    omega
  failed := by rw [second.failed, first.failed, Nat.add_assoc]

theorem becomes_endCopy (interleaved : InterleavedCluster) (index : Nat) :
    Becomes interleaved 0 0 (interleaved.endCopy index) := by
  unfold endCopy
  split
  · next copy found =>
    have fewer := (perm_of_getElem? found).length_eq
    rw [List.length_cons] at fewer
    refine ⟨fun site => ?_, rfl, ?_, ?_, rfl⟩
    · exact (Topology.address?_setUp ..).trans (Topology.address?_assign ..)
    · rw [← fewer]
      exact Nat.add_right_comm _ 1 _
    · simp only [become, SimulatedCluster.finish, List.length_append, List.length_singleton]
      omega
  · exact .refl interleaved

theorem becomes_turn (interleaved : InterleavedCluster) :
    Becomes interleaved 0 0 interleaved.turn := by
  unfold turn
  split
  · exact .refl interleaved
  · next ends schedule _ =>
    have same : Becomes interleaved 0 0 { interleaved with schedule } :=
      ⟨fun _ => rfl, rfl, rfl, rfl, rfl⟩
    refine List.foldlRecOn (motive := fun after => Becomes interleaved 0 0 after) ends _ same ?_
    intro after known index _
    exact known.trans (becomes_endCopy after index)

theorem becomes_snapshot (interleaved : InterleavedCluster) :
    Becomes interleaved 0 0 (Environment.snapshot interleaved).2 := by
  have shown : Becomes interleaved.turn 0 0 interleaved.turn.observe.2 :=
    ⟨fun _ => rfl, rfl, rfl, rfl, rfl⟩
  exact (becomes_turn interleaved).trans shown

theorem becomes_start (interleaved : InterleavedCluster) (move : Move) :
    Becomes interleaved (interleaved.start move).1.toNat 0 (interleaved.start move).2 := by
  unfold start
  by_cases feasible : move.IsFeasible interleaved.cluster.topology
  · rw [SimulatedCluster.startMove_of_isFeasible feasible]
    refine ⟨fun site => Topology.address?_assign .., rfl, ?_, rfl, rfl⟩
    simp only [become, SimulatedCluster.reserved, List.length_append, List.length_singleton]
    rfl
  · obtain ⟨error, refused⟩ := SimulatedCluster.startMove_of_not_isFeasible feasible
    rw [refused]
    exact ⟨fun _ => rfl, rfl, rfl, rfl, rfl⟩

/-- A site that is known under its host fails when it is to be retired. -/
theorem becomes_retire {interleaved : InterleavedCluster} {host : HostId} {site : SiteId}
    (known : interleaved.cluster.topology.hostOfSite site = some host) :
    Becomes interleaved 0 1 (interleaved.retire host site).2 := by
  obtain ⟨found, here, on⟩ := Option.map_eq_some_iff.1 known
  unfold retire
  rw [SimulatedCluster.retire_of_known here on]
  exact ⟨fun _ => Topology.address?_setUp .., rfl, rfl, rfl, rfl⟩

theorem becomes_dispatch (run : Run) (moves : List Move) (interleaved : InterleavedCluster) :
    Becomes interleaved (Run.accepted moves interleaved).length 0
      (Run.dispatch run moves interleaved).2 := by
  induction moves generalizing run interleaved with
  | nil => exact .refl interleaved
  | cons move moves ih =>
    have first := (becomes_turn interleaved).trans (becomes_start interleaved.turn move)
    have counted : (Run.accepted (move :: moves) interleaved).length =
        (interleaved.turn.start move).1.toNat +
          (Run.accepted moves (interleaved.turn.start move).2).length := by
      simp only [Run.accepted, Environment.startMove]
      cases (interleaved.turn.start move).1 with
      | true => exact Nat.add_comm ..
      | false => exact (Nat.zero_add _).symm
    rw [Nat.zero_add] at first
    rw [Run.dispatch_cons, counted]
    exact first.trans (ih _ _)

/-- Every source that is known under its host fails when a run retires its sources. -/
theorem becomes_retireSources {run : Run} {interleaved : InterleavedCluster}
    (known : ∀ source ∈ run.sources,
      interleaved.cluster.topology.hostOfSite source.2 = some source.1) :
    Becomes interleaved 0 run.sources.length (run.retireSources interleaved).2 := by
  have retired (sources : List (HostId × SiteId)) (state : Nat × InterleavedCluster)
      (known : ∀ source ∈ sources,
        state.2.cluster.topology.hostOfSite source.2 = some source.1) :
      Becomes state.2 0 sources.length (sources.foldl Run.retireSource state).2 := by
    induction sources generalizing state with
    | nil => exact .refl state.2
    | cons source sources ih =>
      obtain ⟨here, later⟩ := List.forall_mem_cons.1 known
      have turned := becomes_turn state.2
      have still := Topology.hostOfSite_of_address? turned.addresses
      have first : Becomes state.2 0 1 (Run.retireSource state source).2 :=
        turned.trans (becomes_retire ((still _).trans here))
      have rest := ih (Run.retireSource state source) fun other member =>
        (Topology.hostOfSite_of_address? first.addresses _).trans (later other member)
      rw [List.length_cons, Nat.add_comm]
      exact first.trans rest
  exact retired run.sources (0, interleaved) known

end InterleavedCluster

end Rebalance
