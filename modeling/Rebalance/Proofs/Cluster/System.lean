import Mathlib.Data.List.InsertIdx
import Rebalance.Proofs.Cluster.Closed
import Rebalance.Proofs.Cluster.Turns
import Rebalance.Proofs.Controller.Alike

/-!
The turns of a system are events of the closed system, so that what holds in every order of
these holds of it. An acknowledgement that waits in the inbox is one that is on its way there.
-/

namespace Rebalance

namespace InterleavedCluster

/-- The same cluster, time apart, while no copy ends before a request and these moves are yet
to be acknowledged. -/
structure Mirrors (acks : List Move) (cluster : SimulatedCluster)
    (interleaved : InterleavedCluster) : Prop where
  ready : interleaved.cluster.ready = cluster.ready
  topology : interleaved.cluster.topology = cluster.topology
  copies : interleaved.copying = cluster.copies.map (·.move)
  schedule : interleaved.schedule = []
  acks : interleaved.acks = acks

variable {acks : List Move} {cluster : SimulatedCluster} {interleaved : InterleavedCluster}

theorem Mirrors.turn (mirrors : Mirrors acks cluster interleaved) : interleaved.turn = interleaved := by
  unfold InterleavedCluster.turn
  rw [mirrors.schedule]

theorem Mirrors.start (mirrors : Mirrors acks cluster interleaved) (move : Move) :
    Alongside (Mirrors acks) (Environment.startMove move cluster) (interleaved.start move) := by
  simp only [Environment.startMove, InterleavedCluster.start]
  by_cases feasible : move.IsFeasible cluster.topology
  · have feasibleToo := mirrors.topology.symm ▸ feasible
    simp only [SimulatedCluster.startMove_of_isFeasible feasible,
      SimulatedCluster.startMove_of_isFeasible feasibleToo]
    refine ⟨rfl, { mirrors with topology := ?_, copies := ?_ }⟩
    · exact congrArg (·.assign move.targetSite move.partition) mirrors.topology
    · have copies := mirrors.copies
      unfold InterleavedCluster.copying at copies ⊢
      simp only [InterleavedCluster.become, SimulatedCluster.reserved, List.map_append, copies,
        List.map_cons, List.map_nil]
  · have infeasible := mirrors.topology.symm ▸ feasible
    obtain ⟨error, refused⟩ := SimulatedCluster.startMove_of_not_isFeasible feasible
    obtain ⟨errorToo, refusedToo⟩ := SimulatedCluster.startMove_of_not_isFeasible infeasible
    simp only [refused, refusedToo]
    exact ⟨rfl, { mirrors with }⟩

theorem Mirrors.retire (mirrors : Mirrors acks cluster interleaved) (host : HostId) (site : SiteId) :
    Alongside (Mirrors acks) (Environment.retireSite host site cluster)
      (interleaved.retire host site) := by
  simp only [Environment.retireSite, InterleavedCluster.retire]
  by_cases known : ∃ found, cluster.topology.site? site = some found ∧ found.host = host
  · obtain ⟨found, here, on⟩ := known
    have hereToo := mirrors.topology.symm ▸ here
    simp only [SimulatedCluster.retire_of_known here on,
      SimulatedCluster.retire_of_known hereToo on]
    exact ⟨rfl, { mirrors with
      topology := congrArg (·.setUp site false) mirrors.topology }⟩
  · have unknown : ∀ found, cluster.topology.site? site = some found → found.host ≠ host :=
      fun found here on => known ⟨found, here, on⟩
    obtain ⟨error, refused⟩ := SimulatedCluster.retire_of_unknown unknown
    obtain ⟨errorToo, refusedToo⟩ :=
      SimulatedCluster.retire_of_unknown (mirrors.topology.symm ▸ unknown)
    simp only [refused, refusedToo]
    exact ⟨rfl, { mirrors with }⟩

theorem alike_mirrors (acks : List Move) : Environment.Alike (Mirrors acks) where
  isReady mirrors := by
    simp only [Environment.isReady, mirrors.turn]
    exact ⟨mirrors.ready.symm, mirrors⟩
  snapshot mirrors := by
    simp only [Environment.snapshot, mirrors.turn]
    exact ⟨congrArg some mirrors.topology.symm, { mirrors with }⟩
  startMove move mirrors := by
    change Alongside (Mirrors acks) _ (InterleavedCluster.start (InterleavedCluster.turn _) move)
    rw [mirrors.turn]
    exact mirrors.start move
  retireSite host site mirrors := by
    change Alongside (Mirrors acks) _ (InterleavedCluster.retire (InterleavedCluster.turn _) host site)
    rw [mirrors.turn]
    exact mirrors.retire host site

theorem Mirrors.endCopy (mirrors : Mirrors acks cluster interleaved) {copy : Copy}
    (under : copy ∈ cluster.copies) :
    ∃ index, Mirrors (acks ++ [copy.move]) (cluster.endCopy copy) (interleaved.endCopy index) := by
  have here : cluster.copies[cluster.copies.idxOf copy]? = some copy := List.getElem?_idxOf under
  have copying : (interleaved.cluster.copies[cluster.copies.idxOf copy]?).map (·.move) =
      some copy.move := by
    have copies := mirrors.copies
    unfold InterleavedCluster.copying at copies
    rw [← List.getElem?_map, copies, List.getElem?_map, here]
    rfl
  obtain ⟨other, hereToo, move⟩ := Option.map_eq_some_iff.1 copying
  refine ⟨cluster.copies.idxOf copy, ?_⟩
  unfold InterleavedCluster.endCopy
  simp only [hereToo, move]
  have left : (interleaved.cluster.copies.eraseIdx (cluster.copies.idxOf copy)).map (·.move) =
      (cluster.copies.erase copy).map (·.move) := by
    rw [List.erase_eq_eraseIdx_of_idxOf rfl, ← List.eraseIdx_map, ← List.eraseIdx_map]
    exact congrArg (·.eraseIdx (cluster.copies.idxOf copy)) mirrors.copies
  refine { mirrors with topology := ?_, copies := left, acks := ?_ }
  · simp only [InterleavedCluster.become, SimulatedCluster.endCopy, SimulatedCluster.finish,
      mirrors.topology]
  · exact congrArg (· ++ [copy.move]) mirrors.acks

/-- The oldest of some acknowledgements that are on their way is taken from among these. -/
theorem exists_getElem?_of_cons_sublist {site : SiteId} {sites : List SiteId} {moves : List Move}
    (listed : (site :: sites).Sublist (moves.map (·.targetSite))) :
    ∃ index move, moves[index]? = some move ∧ move.targetSite = site ∧
      sites.Sublist ((moves.eraseIdx index).map (·.targetSite)) := by
  induction moves with
  | nil => cases listed
  | cons move moves ih =>
    cases listed with
    | cons _ listed =>
      obtain ⟨index, found, here, same, rest⟩ := ih listed
      exact ⟨index + 1, found, here, same, rest.cons _⟩
    | cons_cons _ rest => exact ⟨0, move, rfl, rfl, rest⟩

end InterleavedCluster

namespace System

open InterleavedCluster

/-- A system, and a closed one in the same state. Not all acknowledgements need be waiting, as
copies may end when the inbox is closed. -/
structure Covers {α : Type} (closed : Closed α) (system : System α) : Prop where
  follows : system.Follows closed.1
  mirrors : Mirrors closed.2.acks system.environment closed.2
  acks : system.acks.Sublist (closed.2.acks.map (·.targetSite))
  waiting : ∀ nextPoll, system.stage = .waiting nextPoll → closed.1.state = .startupWait

theorem covers_of_mirrors {α : Type} {controller : Controller α} {moves : List Move}
    {interleaved : InterleavedCluster} {system : System α} (follows : system.Follows controller)
    (mirrors : Mirrors moves system.environment interleaved)
    (listed : system.acks.Sublist (moves.map (·.targetSite)))
    (asks : ∀ nextPoll, system.stage = .waiting nextPoll → controller.state = .startupWait) :
    Covers (controller, interleaved) system := by
  obtain rfl := mirrors.acks
  exact ⟨follows, mirrors, listed, asks⟩

variable {α : Type} [Scalar α] {closed : Closed α} {system after : System α}

theorem covers_start (config : Config α) (layout : Layout) (copyDelay now : Nat) :
    Covers (Closed.start config layout copyDelay now) (start config layout copyDelay now) where
  follows := rfl
  mirrors := ⟨rfl, rfl, rfl, rfl, rfl⟩
  acks := .refl _
  waiting _ _ := rfl

theorem Covers.endCopy (covers : Covers closed system) {copy : Copy}
    (under : copy ∈ system.environment.copies) :
    ∃ next, Closed.Step closed next ∧ Covers next (system.endCopy copy) := by
  obtain ⟨index, mirrors⟩ := covers.mirrors.endCopy under
  refine ⟨(closed.1, closed.2.endCopy index), .copied index, ?_⟩
  unfold System.endCopy
  simp only
  split
  · refine covers_of_mirrors covers.follows mirrors ?_ covers.waiting
    rw [acks_enqueue, List.map_append]
    exact covers.acks.append (.refl _)
  · refine covers_of_mirrors covers.follows mirrors ?_ covers.waiting
    rw [List.map_append]
    exact covers.acks.trans (List.sublist_append_left ..)

theorem Covers.receive (covers : Covers closed system) {deadline : Nat} {message : Message}
    {rest : List Message} (running : system.stage = .running deadline)
    (oldest : system.inbox = message :: rest) :
    ∃ next, Closed.Step closed next ∧
      Covers next (Loop.receive { system with inbox := rest } message) := by
  obtain ⟨controller, interleaved⟩ := closed
  obtain rfl : system.controller = controller := covers.follows.of_running running
  have acks := covers.acks
  rw [System.acks, oldest] at acks
  have quiet (nextPoll : Nat) (waiting : system.stage = .waiting nextPoll) : False :=
    nomatch running.symm.trans waiting
  cases message with
  | telemetry batch =>
    have ⟨same, mirrors⟩ := (alike_mirrors _).receive system.controller system.now
      (.telemetry batch) covers.mirrors
    exact ⟨_, .telemetry system.now batch, covers_of_mirrors
      (Follows.intro running same) mirrors acks fun _ waiting => (quiet _ waiting).elim⟩
  | moveDone site =>
    obtain ⟨index, move, sent, rfl, left⟩ := exists_getElem?_of_cons_sublist acks
    have delivered : Mirrors (interleaved.acks.eraseIdx index) system.environment
        { interleaved with acks := interleaved.acks.eraseIdx index, schedule := [] } :=
      { covers.mirrors with schedule := rfl, acks := rfl }
    have ⟨same, mirrors⟩ := (alike_mirrors _).receive system.controller system.now
      (.moveDone move.targetSite) delivered
    exact ⟨_, .acknowledged system.now [] sent, covers_of_mirrors
      (Follows.intro running same) mirrors left fun _ waiting => (quiet _ waiting).elim⟩

/-- Where an epoch ends, the acknowledgements that wait go on waiting. -/
theorem Covers.boundary (covers : Covers closed system) {deadline : Nat}
    (running : system.stage = .running deadline) :
    ∃ next, Closed.Step closed next ∧ Covers next (Loop.boundary system deadline) := by
  obtain ⟨controller, interleaved⟩ := closed
  obtain rfl : system.controller = controller := covers.follows.of_running running
  have scheduled : Mirrors interleaved.acks system.environment
      { interleaved with schedule := [] } := { covers.mirrors with schedule := rfl }
  have ⟨same, mirrors⟩ := (alike_mirrors _).closeEpoch system.controller system.now scheduled
  exact ⟨_, .epoch system.now [], covers_of_mirrors (Follows.intro rfl same) mirrors covers.acks
    nofun⟩

theorem Covers.poll (covers : Covers closed system) {nextPoll : Nat}
    (waiting : system.stage = .waiting nextPoll) :
    ∃ next, Relation.ReflTransGen Closed.Step closed next ∧ Covers next (Loop.poll system) := by
  obtain ⟨controller, interleaved⟩ := closed
  obtain rfl : system.controller = controller := covers.follows.of_waiting waiting
  have fresh := covers.waiting nextPoll waiting
  unfold Loop.poll
  simp only
  split
  · exact ⟨_, .single (.ready system.now fresh), { covers with follows := rfl, waiting := nofun }⟩
  · exact ⟨_, .refl, { covers with follows := rfl, waiting := fun _ _ => fresh }⟩

/-- A turn is an event of the closed system, or changes nothing there. -/
theorem Covers.turn (covers : Covers closed system) {batch? : Option (List Record)}
    (turn : Turn system batch? after) :
    ∃ next, Relation.ReflTransGen Closed.Step closed next ∧ Covers next after := by
  cases turn with
  | sent batch =>
    refine ⟨closed, .refl, { covers with acks := ?_ }⟩
    rw [acks_enqueue]
    exact (List.append_nil system.acks).symm ▸ covers.acks
  | copied under =>
    obtain ⟨next, step, ended⟩ := covers.endCopy under
    exact ⟨next, .single step, ended⟩
  | polled waiting => exact covers.poll waiting
  | taken running oldest =>
    obtain ⟨next, step, received⟩ := covers.receive running oldest
    exact ⟨next, .single step, received⟩
  | boundary running =>
    obtain ⟨next, step, ended⟩ := covers.boundary running
    exact ⟨next, .single step, ended⟩
  | disconnected => exact ⟨closed, .refl, { covers with }⟩
  | stopped running =>
    have same := covers.follows.of_running running
    exact ⟨closed, .refl,
      { covers with follows := congrArg Controller.stop same, waiting := nofun }⟩
  | elapsed => exact ⟨closed, .refl, { covers with mirrors := { covers.mirrors with } }⟩

/-- Whatever the order of its turns, a system is in a state that the closed one can reach. -/
theorem covers_of_turns {config : Config α} {layout : Layout} {copyDelay now : Nat}
    {batches : List (List Record)}
    (turns : Turns (start config layout copyDelay now) batches system) :
    ∃ closed, Closed.Reachable config layout copyDelay now closed ∧ Covers closed system := by
  induction turns with
  | refl => exact ⟨_, .refl, covers_start config layout copyDelay now⟩
  | tail _ turn ih =>
    obtain ⟨closed, reachable, covers⟩ := ih
    obtain ⟨next, steps, covered⟩ := covers.turn turn
    exact ⟨next, reachable.trans steps, covered⟩

/-- Without a timeout a system keeps every partition served, and outside a migration by one
site alone. -/
theorem served_of_turns {config : Config α} {layout : Layout} (valid : layout.validate = .ok ())
    (untimed : config.migrationTimeout = 0) {copyDelay now : Nat} {batches : List (List Record)}
    (turns : Turns (start config layout copyDelay now) batches system) :
    system.environment.topology.IsServed layout.partitions ∧
      (system.controller.state.isMigrating = false → ∀ partition ∈ layout.partitions,
        (system.environment.topology.upSitesFor partition).length = 1) := by
  obtain ⟨closed, reachable, covers⟩ := covers_of_turns turns
  have ⟨_, agrees⟩ := Closed.agrees_of_reachable valid untimed reachable
  have served := agrees.served
  rw [covers.mirrors.topology] at served
  refine ⟨served, fun still partition member => ?_⟩
  rw [covers.follows.state] at still
  have settled := (agrees.resting still).settled
  rw [covers.mirrors.topology] at settled
  exact settled.upSites_eq_one member

end System

end Rebalance
