import Rebalance.Proofs.Cluster.Layout
import Rebalance.Proofs.Cluster.Simulated
import Rebalance.Proofs.Migration.Run

/-!
A simulated cluster whose copies end at any moment, also between two requests of one run, and
what holds of it while a run's copies are under way and once they are done. A few fields only
observe: no request reads them.
-/

namespace Rebalance

structure InterleavedCluster where
  cluster : SimulatedCluster
  /-- Moves whose copy has ended and whose acknowledgement is on its way. -/
  acks : List Move := []
  /-- For each of the next requests, the copies that end before it, each by its place among
  those then under way. -/
  schedule : List (List Nat) := []
  /-- Observed: what the last snapshot showed. -/
  shown : Topology
  /-- Observed: the moves accepted since the last snapshot. -/
  accepted : List Move := []
  /-- Observed: every move that was ever refused. -/
  refused : List Move := []
  /-- Observed: every topology there was. -/
  passed : List Topology

namespace InterleavedCluster

def new (layout : Layout) (copyDelay clock : Nat) : InterleavedCluster :=
  { cluster := .new layout copyDelay clock
    shown := layout.topology, passed := [layout.topology] }

def copying (interleaved : InterleavedCluster) : List Move :=
  interleaved.cluster.copies.map (·.move)

def become (interleaved : InterleavedCluster) (cluster : SimulatedCluster) : InterleavedCluster :=
  { interleaved with cluster, passed := interleaved.passed ++ [cluster.topology] }

def endCopy (interleaved : InterleavedCluster) (index : Nat) : InterleavedCluster :=
  match interleaved.cluster.copies[index]? with
  | some copy =>
    let copies := interleaved.cluster.copies.eraseIdx index
    let cluster := { interleaved.cluster with copies }.finish copy.move
    { interleaved.become cluster with acks := interleaved.acks ++ [copy.move] }
  | none => interleaved

def turn (interleaved : InterleavedCluster) : InterleavedCluster :=
  match interleaved.schedule with
  | [] => interleaved
  | ends :: schedule => ends.foldl endCopy { interleaved with schedule }

def start (interleaved : InterleavedCluster) (move : Move) : Bool × InterleavedCluster :=
  match interleaved.cluster.startMove move with
  | .ok cluster =>
    (true, { interleaved.become cluster with accepted := interleaved.accepted ++ [move] })
  | .error _ => (false, { interleaved with refused := interleaved.refused ++ [move] })

def retire (interleaved : InterleavedCluster) (host : HostId) (site : SiteId) :
    Bool × InterleavedCluster :=
  match interleaved.cluster.retire host site with
  | .ok cluster => (true, interleaved.become cluster)
  | .error _ => (false, interleaved)

def observe (interleaved : InterleavedCluster) : Option Topology × InterleavedCluster :=
  let shown := interleaved.cluster.topology
  (some shown, { interleaved with shown, accepted := [] })

instance : Environment InterleavedCluster where
  isReady interleaved := (interleaved.turn.cluster.ready, interleaved.turn)
  snapshot interleaved := interleaved.turn.observe
  startMove move interleaved := interleaved.turn.start move
  retireSite host site interleaved := interleaved.turn.retire host site

/-- What the moves accepted since the last snapshot were to bring about: each of their
partitions is on its target host, and every other one where the snapshot showed it. -/
def Realises (interleaved : InterleavedCluster) : Prop :=
  (∀ move ∈ interleaved.accepted,
    interleaved.cluster.placement.hostOf move.partition = some move.targetHost) ∧
  ∀ partition, (∀ move ∈ interleaved.accepted, move.partition ≠ partition) →
    interleaved.cluster.placement.hostOf partition =
      interleaved.shown.placement.hostOf partition

/-- No move was refused, and each of the partitions always had one or two up sites. -/
structure Sound (partitions : List PartitionId) (interleaved : InterleavedCluster) : Prop where
  refused : interleaved.refused = []
  passed : ∀ topology ∈ interleaved.passed, topology.IsServed partitions

/-- Nothing is under way. -/
structure Resting (partitions : List PartitionId) (interleaved : InterleavedCluster) : Prop
    extends Sound partitions interleaved where
  copies : interleaved.cluster.copies = []
  acks : interleaved.acks = []
  settled : interleaved.cluster.topology.IsSettled partitions

/-- The moves of a run are under way: each accepted one is being copied, or acknowledged to
the run, or its acknowledgement is on its way. -/
structure UnderWay (partitions : List PartitionId) (run : Run)
    (interleaved : InterleavedCluster) : Prop extends Sound partitions interleaved where
  settled : interleaved.shown.IsSettled partitions
  joint : Plan.IsJoint interleaved.shown interleaved.accepted
  overlay : Overlay interleaved.shown interleaved.cluster.topology interleaved.accepted
    (interleaved.acks ++ run.completed) []
  books : (interleaved.copying ++ (interleaved.acks ++ run.completed)).Perm interleaved.accepted
  outstanding : ∀ site move, run.outstanding.get? site = some move ↔
    move ∈ interleaved.copying ++ interleaved.acks ∧ move.targetSite = site

variable {partitions : List PartitionId} {run : Run} {interleaved : InterleavedCluster}

theorem Sound.become (sound : Sound partitions interleaved) {cluster : SimulatedCluster}
    (served : cluster.topology.IsServed partitions) :
    Sound partitions (interleaved.become cluster) where
  refused := sound.refused
  passed topology member := by
    rcases List.mem_append.1 member with old | new
    · exact sound.passed topology old
    · exact List.mem_singleton.1 new ▸ served

theorem UnderWay.earlier (under : UnderWay partitions run interleaved) :
    ∀ move ∈ interleaved.acks ++ run.completed, move ∈ interleaved.accepted :=
  fun _ member => under.books.subset (List.mem_append_right _ member)

theorem UnderWay.served (under : UnderWay partitions run interleaved) :
    interleaved.cluster.topology.IsServed partitions :=
  under.overlay.isServed under.joint under.earlier under.settled
    fun _ member => absurd member List.not_mem_nil

theorem UnderWay.reschedule (under : UnderWay partitions run interleaved)
    (schedule : List (List Nat)) : UnderWay partitions run { interleaved with schedule } :=
  { under with }

theorem UnderWay.become (under : UnderWay partitions run interleaved) :
    UnderWay partitions run (interleaved.become interleaved.cluster) :=
  { under with
    refused := under.refused
    passed := (under.toSound.become under.served).passed }

theorem perm_of_getElem? {β : Type} {bs : List β} {index : Nat} {b : β}
    (found : bs[index]? = some b) : (b :: bs.eraseIdx index).Perm bs := by
  obtain ⟨bound, here⟩ := List.getElem?_eq_some_iff.1 found
  have parts := List.getElem_cons_eraseIdx_perm bound
  rwa [here] at parts

/-- A copy that ends turns an outstanding move into one whose acknowledgement is sent. -/
theorem UnderWay.endCopy (under : UnderWay partitions run interleaved) (index : Nat) :
    UnderWay partitions run (interleaved.endCopy index) := by
  unfold InterleavedCluster.endCopy
  cases found : interleaved.cluster.copies[index]? with
  | none => exact under
  | some copy =>
    have split : (copy.move :: (interleaved.cluster.copies.eraseIdx index).map (·.move)).Perm
        interleaved.copying := (perm_of_getElem? found).map Copy.move
    have copied : copy.move ∈ interleaved.copying := split.subset List.mem_cons_self
    have member : copy.move ∈ interleaved.accepted :=
      under.books.subset (List.mem_append_left _ copied)
    have overlay := under.overlay.finish under.joint member
    have handed : ((interleaved.cluster.copies.eraseIdx index).map (·.move) ++
        (interleaved.acks ++ [copy.move])).Perm (interleaved.copying ++ interleaved.acks) := by
      refine List.Perm.trans ?_ (split.append_right _)
      rw [← List.append_assoc]
      exact List.perm_append_singleton _ _
    have after : UnderWay partitions run
        { interleaved with
          cluster := { interleaved.cluster with
            copies := interleaved.cluster.copies.eraseIdx index }.finish copy.move
          acks := interleaved.acks ++ [copy.move] } :=
      { under with
        overlay := overlay.congr_ended fun move => by
          simp only [List.mem_cons, List.mem_append, List.not_mem_nil, or_false]
          grind
        books := by
          have books := under.books
          rw [← List.append_assoc] at books ⊢
          exact (handed.append_right _).trans books
        outstanding := Run.IsAwaited.congr under.outstanding fun move => handed.symm.mem_iff }
    exact after.become

theorem shown_endCopy (interleaved : InterleavedCluster) (index : Nat) :
    (interleaved.endCopy index).shown = interleaved.shown ∧
      (interleaved.endCopy index).accepted = interleaved.accepted := by
  unfold InterleavedCluster.endCopy
  split
  · exact ⟨rfl, rfl⟩
  · exact ⟨rfl, rfl⟩

theorem UnderWay.turn (under : UnderWay partitions run interleaved) :
    UnderWay partitions run interleaved.turn ∧ interleaved.turn.shown = interleaved.shown ∧
      interleaved.turn.accepted = interleaved.accepted := by
  unfold InterleavedCluster.turn
  split
  · exact ⟨under, rfl, rfl⟩
  · next ends schedule _ =>
    refine List.foldlRecOn (motive := fun after : InterleavedCluster =>
      UnderWay partitions run after ∧ after.shown = interleaved.shown ∧
        after.accepted = interleaved.accepted) ends _ ⟨under.reschedule schedule, rfl, rfl⟩ ?_
    intro after known index _
    have ⟨shown, accepted⟩ := shown_endCopy after index
    exact ⟨known.1.endCopy index, shown.trans known.2.1, accepted.trans known.2.2⟩

/-- A move that starts joins those under way. -/
theorem UnderWay.start (under : UnderWay partitions run interleaved) {move : Move}
    (joint : Plan.IsJoint interleaved.shown (interleaved.accepted ++ [move])) :
    (interleaved.start move).1 = true ∧
      UnderWay partitions
        { run with outstanding := run.outstanding.insert move.targetSite move }
        (interleaved.start move).2 ∧
      (interleaved.start move).2.shown = interleaved.shown ∧
      (interleaved.start move).2.accepted = interleaved.accepted ++ [move] := by
  have waiting : ∀ other ∈ interleaved.copying ++ interleaved.acks,
      other.targetSite ≠ move.targetSite := by
    intro other member
    apply joint.fresh_target
    rcases List.mem_append.1 member with copied | sent
    · exact under.books.subset (List.mem_append_left _ copied)
    · exact under.earlier other (List.mem_append_left _ sent)
  unfold InterleavedCluster.start
  rw [SimulatedCluster.startMove_of_isFeasible (under.overlay.isFeasible joint)]
  refine ⟨rfl, ?_, rfl, rfl⟩
  have copying : (interleaved.cluster.reserved move).copies.map (·.move) =
      interleaved.copying ++ [move] := List.map_append
  have after : UnderWay partitions
      { run with outstanding := run.outstanding.insert move.targetSite move }
      { interleaved with
        cluster := interleaved.cluster.reserved move
        accepted := interleaved.accepted ++ [move] } :=
    { under with
      joint := joint
      overlay := under.overlay.start joint under.earlier
      books := by
        unfold InterleavedCluster.copying
        rw [copying, List.append_assoc]
        apply (List.perm_append_comm.append_left _).trans
        rw [← List.append_assoc]
        exact under.books.append_right _
      outstanding := by
        apply (Run.IsAwaited.insert under.outstanding waiting).congr
        intro other
        unfold InterleavedCluster.copying
        rw [copying, List.append_assoc]
        exact List.perm_middle.symm.mem_iff }
  exact after.become

/-- A run whose moves are all handed over is under way with all of them, whatever copies end
in between. -/
theorem UnderWay.dispatch {moves : List Move} (under : UnderWay partitions run interleaved)
    (joint : Plan.IsJoint interleaved.shown (interleaved.accepted ++ moves)) :
    let launched := Run.dispatch run moves interleaved
    UnderWay partitions launched.1 launched.2 ∧
      launched.2.accepted = interleaved.accepted ++ moves ∧
      launched.1.completed = run.completed := by
  induction moves generalizing run interleaved with
  | nil => exact ⟨under, (List.append_nil _).symm, rfl⟩
  | cons move moves ih =>
    -- The cluster takes the move as it is after the copies that end first.
    have ⟨turned, shown, accepted⟩ := under.turn
    have next : Plan.IsJoint interleaved.turn.shown (interleaved.turn.accepted ++ [move]) := by
      rw [shown, accepted]
      apply joint.sublist
      exact (List.Sublist.refl _).append (List.singleton_sublist.2 List.mem_cons_self)
    obtain ⟨taken, started, shownToo, acceptedToo⟩ := turned.start next
    have handed : Run.dispatchMove (run, interleaved) move =
        ({ run with outstanding := run.outstanding.insert move.targetSite move },
          (interleaved.turn.start move).2) := by
      unfold Run.dispatchMove
      simp only [Environment.startMove, taken]
      rfl
    have rest : Plan.IsJoint (interleaved.turn.start move).2.shown
        ((interleaved.turn.start move).2.accepted ++ moves) := by
      rw [shownToo, shown, acceptedToo, accepted, List.append_assoc]
      exact joint
    have ⟨after, acceptedAfter, completed⟩ := ih started rest
    unfold Run.dispatch at after acceptedAfter completed ⊢
    rw [List.foldl_cons, handed]
    refine ⟨after, ?_, completed⟩
    rw [acceptedAfter, acceptedToo, accepted, List.append_assoc]
    rfl

theorem UnderWay.known_of_sent (under : UnderWay partitions run interleaved) {move : Move}
    (sent : move ∈ interleaved.acks) : run.outstanding.get? move.targetSite = some move :=
  (under.outstanding _ _).2 ⟨List.mem_append_right _ sent, rfl⟩

theorem UnderWay.acknowledged (under : UnderWay partitions run interleaved) {index : Nat}
    {move : Move} (sent : interleaved.acks[index]? = some move) :
    UnderWay partitions (run.acknowledged move move.targetSite)
      { interleaved with acks := interleaved.acks.eraseIdx index } := by
  have split := perm_of_getElem? sent
  have awaited : (move :: (interleaved.copying ++ interleaved.acks.eraseIdx index)).Perm
      (interleaved.copying ++ interleaved.acks) :=
    List.perm_middle.symm.trans (split.append_left _)
  have parts : (move :: (interleaved.copying ++
      (interleaved.acks.eraseIdx index ++ run.completed))).Perm interleaved.accepted := by
    have books := under.books
    rw [← List.append_assoc] at books ⊢
    exact (awaited.append_right _).trans books
  have apart : ∀ other ∈ interleaved.copying ++ interleaved.acks.eraseIdx index,
      other.targetSite ≠ move.targetSite := by
    have targets := (parts.map (·.targetSite)).nodup_iff.2 under.joint.targets
    intro other listed same
    apply (List.nodup_cons.1 targets).1
    rw [← List.append_assoc]
    exact List.mem_map.2 ⟨other, List.mem_append_left _ listed, same⟩
  exact { under with
    overlay := under.overlay.congr_ended fun other => by
      have same := split.mem_iff (a := other)
      simp only [Run.acknowledged, List.mem_append, List.mem_cons, List.not_mem_nil,
        or_false] at same ⊢
      grind
    books := by
      refine List.Perm.trans ?_ parts
      unfold Run.acknowledged
      rw [← List.append_assoc, ← List.append_assoc, ← List.append_assoc]
      exact List.perm_append_singleton _ _
    outstanding := by
      apply Run.IsAwaited.erase _ apart
      exact Run.IsAwaited.congr under.outstanding fun other => awaited.symm.mem_iff }

theorem endCopy_of_idle (idle : interleaved.cluster.copies = []) (index : Nat) :
    interleaved.endCopy index = interleaved := by
  unfold InterleavedCluster.endCopy
  rw [idle]
  rfl

theorem turn_of_idle (idle : interleaved.cluster.copies = []) :
    ∃ schedule, interleaved.turn = { interleaved with schedule } := by
  unfold InterleavedCluster.turn
  split
  · exact ⟨interleaved.schedule, rfl⟩
  · next ends schedule _ =>
    refine ⟨schedule, ?_⟩
    refine List.foldlRecOn (motive := fun after : InterleavedCluster =>
      after = { interleaved with schedule }) ends _ rfl ?_
    intro after same index _
    rw [same]
    apply endCopy_of_idle
    exact idle

/-- A completed run's sources are being retired, those of `retired` so far. -/
structure Retiring (partitions : List PartitionId) (before : InterleavedCluster)
    (retired : List SiteId) (after : InterleavedCluster) : Prop
    extends Sound partitions after where
  copies : after.cluster.copies = []
  acks : after.acks = []
  shown : after.shown = before.shown
  accepted : after.accepted = before.accepted
  overlay : Overlay before.shown after.cluster.topology before.accepted before.accepted retired
  replaced : ∀ site ∈ retired, ∃ move ∈ before.accepted, move.sourceSite = site

variable {after : InterleavedCluster} {retired : List SiteId}

theorem Retiring.retire (retiring : Retiring partitions interleaved retired after)
    (settled : interleaved.shown.IsSettled partitions)
    (joint : Plan.IsJoint interleaved.shown interleaved.accepted) {move : Move}
    (member : move ∈ interleaved.accepted) :
    Retiring partitions interleaved (retired ++ [move.sourceSite])
      (Environment.retireSite move.sourceHost move.sourceSite after).2 := by
  have away : ∀ other ∈ interleaved.accepted, other.targetSite ≠ move.sourceSite :=
    fun other memberToo => joint.target_ne_source memberToo member
  obtain ⟨source, here, host, _⟩ := (joint.feasible move member).source
  have shown := retiring.overlay.other _ away
  rw [here] at shown
  have taken := SimulatedCluster.retire_of_known shown host
  have overlay := retiring.overlay.retire away
  have replaced : ∀ site ∈ retired ++ [move.sourceSite],
      ∃ other ∈ interleaved.accepted, other.sourceSite = site := by
    intro site listed
    rcases List.mem_append.1 listed with old | new
    · exact retiring.replaced site old
    · exact ⟨move, member, (List.mem_singleton.1 new).symm⟩
  have served := overlay.isServed joint (fun _ known => known) settled replaced
  obtain ⟨schedule, turned⟩ := turn_of_idle retiring.copies
  change Retiring _ _ _ (after.turn.retire move.sourceHost move.sourceSite).2
  rw [turned]
  unfold InterleavedCluster.retire
  simp only [taken]
  exact { retiring with
    overlay := overlay
    replaced := replaced
    refused := retiring.refused
    passed := (retiring.toSound.become served).passed }

theorem Retiring.foldl_retireSource (settled : interleaved.shown.IsSettled partitions)
    (joint : Plan.IsJoint interleaved.shown interleaved.accepted)
    {sources : List (HostId × SiteId)} (count : Nat)
    (known : ∀ source ∈ sources, ∃ move ∈ interleaved.accepted,
      move.sourceHost = source.1 ∧ move.sourceSite = source.2)
    (retiring : Retiring partitions interleaved retired after) :
    Retiring partitions interleaved (retired ++ sources.map (·.2))
      (sources.foldl Run.retireSource (count, after)).2 := by
  induction sources generalizing retired after count with
  | nil => exact (List.append_nil _).symm ▸ retiring
  | cons source sources ih =>
    obtain ⟨move, member, host, site⟩ := known source List.mem_cons_self
    have next := retiring.retire settled joint member
    rw [host, site] at next
    have rest := ih (Run.retireSource (count, after) source).1
      (fun other later => known other (List.mem_cons_of_mem _ later)) next
    rw [List.append_assoc] at rest
    exact rest

theorem copying_of_isComplete (under : UnderWay partitions run interleaved)
    (last : run.isComplete = true) : interleaved.cluster.copies = [] ∧ interleaved.acks = [] := by
  have empty : run.outstanding.entries = [] := List.isEmpty_iff.1 last
  have none : interleaved.copying ++ interleaved.acks = [] := by
    apply List.eq_nil_iff_forall_not_mem.2
    intro move member
    have known := (under.outstanding _ move).2 ⟨member, rfl⟩
    rw [IdMap.get?_eq_some_iff, empty] at known
    exact List.not_mem_nil known
  obtain ⟨copying, acks⟩ := List.append_eq_nil_iff.1 none
  exact ⟨List.map_eq_nil_iff.1 copying, acks⟩

/-- When the last move is acknowledged and its sources are retired, the cluster rests and the
run's moves are realised. -/
theorem UnderWay.retireSources (under : UnderWay partitions run interleaved)
    (last : run.isComplete = true) :
    Resting partitions (run.retireSources interleaved).2 ∧
      (run.retireSources interleaved).2.Realises := by
  obtain ⟨copies, acks⟩ := copying_of_isComplete under last
  have books : run.completed.Perm interleaved.accepted := by
    have parts := under.books
    rwa [copying, copies, acks] at parts
  have start : Retiring partitions interleaved [] interleaved :=
    { under with
      copies := copies
      acks := acks
      shown := rfl
      accepted := rfl
      overlay := under.overlay.congr_ended fun move => by
        rw [acks, List.nil_append, books.mem_iff]
      replaced := fun _ member => absurd member List.not_mem_nil }
  have done := start.foldl_retireSource under.settled under.joint 0 fun source listed => by
    obtain ⟨move, member, same⟩ := Run.mem_sources.1 listed
    exact ⟨move, books.subset member, same⟩
  have complete : Overlay.IsComplete interleaved.accepted interleaved.accepted
      ([] ++ run.sources.map (·.2)) := by
    refine ⟨fun _ => Iff.rfl, fun site => ?_⟩
    rw [List.nil_append, List.mem_map]
    constructor
    · intro listed
      obtain ⟨source, member, same⟩ := listed
      obtain ⟨move, memberToo, _, site⟩ := Run.mem_sources.1 member
      exact ⟨move, books.subset memberToo, site.trans same⟩
    · intro found
      obtain ⟨move, member, same⟩ := found
      exact ⟨(move.sourceHost, site),
        Run.mem_sources.2 ⟨move, books.symm.subset member, rfl, same⟩, rfl⟩
  have settled := done.overlay.settled under.joint complete under.settled
  refine ⟨{ done with settled := settled }, ?_, ?_⟩
  · intro move member
    exact done.overlay.hostOf_moved under.joint complete under.settled (done.accepted ▸ member)
  · intro partition kept
    refine (done.overlay.hostOf_kept under.joint complete under.settled.keyed ?_).trans ?_
    · exact done.accepted ▸ kept
    · exact congrArg (fun shown : Topology => shown.placement.hostOf partition) done.shown.symm

end InterleavedCluster

end Rebalance
