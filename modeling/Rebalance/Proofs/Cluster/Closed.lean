import Mathlib.Logic.Relation
import Rebalance.Proofs.Cluster.Interleaved
import Rebalance.Proofs.Controller.Transitions
import Rebalance.Proofs.Search.Feasible

/-!
The controller and a simulated cluster as one closed system, in which telemetry, ends of
epochs, ends of copies and acknowledgements come in any order. Between migrations the cluster
rests; during one, the controller's run and the cluster agree on what is under way.
-/

namespace Rebalance

abbrev Closed (α : Type) := Controller α × InterleavedCluster

namespace Closed

variable {α : Type} [Scalar α]

def start (config : Config α) (layout : Layout) (copyDelay clock : Nat) : Closed α :=
  (Controller.new config, InterleavedCluster.new layout copyDelay clock)

/-- One event. Each acknowledgement is delivered once, but not always in the order of sending. -/
inductive Step : Closed α → Closed α → Prop where
  | ready {closed : Closed α} (now : Nat) (waiting : closed.1.state = .startupWait) :
      Step closed (closed.1.begin now, closed.2)
  | telemetry {closed : Closed α} (now : Nat) (batch : List Record) :
      Step closed (closed.1.receive now (.telemetry batch) closed.2)
  | epoch {closed : Closed α} (now : Nat) (schedule : List (List Nat)) :
      Step closed (closed.1.closeEpoch now { closed.2 with schedule })
  | copied {closed : Closed α} (index : Nat) : Step closed (closed.1, closed.2.endCopy index)
  | acknowledged {closed : Closed α} {index : Nat} {move : Move} (now : Nat)
      (schedule : List (List Nat)) (sent : closed.2.acks[index]? = some move) :
      Step closed (closed.1.receive now (.moveDone move.targetSite)
        { closed.2 with acks := closed.2.acks.eraseIdx index, schedule })

def Reachable (config : Config α) (layout : Layout) (copyDelay clock : Nat) : Closed α → Prop :=
  Relation.ReflTransGen Step (start config layout copyDelay clock)

end Closed

namespace InterleavedCluster

variable {partitions : List PartitionId} {run : Run} {interleaved : InterleavedCluster}

theorem Resting.reschedule (resting : Resting partitions interleaved)
    (schedule : List (List Nat)) : Resting partitions { interleaved with schedule } :=
  { resting with }

theorem Resting.turn (resting : Resting partitions interleaved) :
    Resting partitions interleaved.turn := by
  obtain ⟨schedule, turned⟩ := turn_of_idle resting.copies
  rw [turned]
  exact resting.reschedule schedule

theorem Resting.endCopy (resting : Resting partitions interleaved) (index : Nat) :
    Resting partitions (interleaved.endCopy index) := by
  rw [endCopy_of_idle resting.copies]
  exact resting

theorem Resting.observe (resting : Resting partitions interleaved) :
    Resting partitions interleaved.observe.2 :=
  { resting with }

/-- What a snapshot of a resting cluster shows is settled, and ready for a run. -/
theorem Resting.underWay (resting : Resting partitions interleaved) :
    UnderWay partitions {} interleaved.observe.2 where
  refused := resting.refused
  passed := resting.passed
  settled := resting.settled
  joint := ⟨fun move member => absurd member List.not_mem_nil, List.nodup_nil, List.nodup_nil⟩
  overlay := (Overlay.refl _).congr_ended fun move => by
    simp [InterleavedCluster.observe, resting.acks]
  books := by
    simp [InterleavedCluster.observe, InterleavedCluster.copying, resting.copies, resting.acks]
  outstanding site move := by
    simp [InterleavedCluster.observe, InterleavedCluster.copying, resting.copies, resting.acks]

/-- A run without outstanding or acknowledged moves has changed nothing. -/
theorem UnderWay.resting (under : UnderWay partitions run interleaved)
    (last : run.isComplete = true) (none : run.completed = []) :
    Resting partitions interleaved := by
  obtain ⟨copies, acks⟩ := copying_of_isComplete under last
  have accepted : interleaved.accepted = [] := by
    have books := under.books
    rw [copying, copies, acks, none] at books
    exact books.symm.eq_nil
  have complete : Overlay.IsComplete interleaved.accepted
      (interleaved.acks ++ run.completed) [] := by
    rw [accepted, acks, none]
    exact ⟨fun _ => Iff.rfl, fun site => by simp⟩
  exact { under with
    copies := copies
    acks := acks
    settled := under.overlay.settled under.joint complete under.settled }

end InterleavedCluster

namespace Closed

open InterleavedCluster

variable {partitions : List PartitionId}

/-- Outside a migration the cluster rests, and during one it is under way with the run. -/
inductive Agrees (partitions : List PartitionId) :
    ControllerState → InterleavedCluster → Prop where
  | waiting {interleaved : InterleavedCluster} (resting : Resting partitions interleaved) :
      Agrees partitions .startupWait interleaved
  | collecting (ignore : Nat) {interleaved : InterleavedCluster}
      (resting : Resting partitions interleaved) :
      Agrees partitions (.collecting ignore) interleaved
  | migrating {run : Run} (ignoreAfter lastProgress : Nat) {interleaved : InterleavedCluster}
      (under : UnderWay partitions run interleaved) :
      Agrees partitions (.migrating run ignoreAfter lastProgress) interleaved

theorem Agrees.sound {state : ControllerState} {interleaved : InterleavedCluster}
    (agrees : Agrees partitions state interleaved) : Sound partitions interleaved := by
  cases agrees with
  | waiting resting => exact resting.toSound
  | collecting ignore resting => exact resting.toSound
  | migrating ignoreAfter lastProgress under => exact under.toSound

theorem Agrees.served {state : ControllerState} {interleaved : InterleavedCluster}
    (agrees : Agrees partitions state interleaved) :
    interleaved.cluster.topology.IsServed partitions := by
  cases agrees with
  | waiting resting => exact resting.settled.isServed
  | collecting ignore resting => exact resting.settled.isServed
  | migrating ignoreAfter lastProgress under => exact under.served

theorem Agrees.resting {state : ControllerState} {interleaved : InterleavedCluster}
    (agrees : Agrees partitions state interleaved) (still : state.isMigrating = false) :
    Resting partitions interleaved := by
  cases agrees with
  | waiting resting => exact resting
  | collecting ignore resting => exact resting
  | migrating => cases still

theorem agrees_start {α : Type} [Scalar α] (config : Config α) {layout : Layout}
    (valid : layout.validate = .ok ()) (copyDelay clock : Nat) :
    Agrees layout.partitions (start config layout copyDelay clock).1.state
      (start config layout copyDelay clock).2 := by
  have settled := Layout.isSettled_topology valid
  apply Agrees.waiting
  refine { refused := rfl, passed := ?_, copies := rfl, acks := rfl, settled := settled }
  intro topology member
  rw [List.mem_singleton.1 member]
  exact settled.isServed

variable {α : Type} [Scalar α]

/-- A run that is started from rest is under way, unless there was nothing to move. -/
theorem agrees_dispatch {interleaved : InterleavedCluster}
    (resting : Resting partitions interleaved) {topology : Topology}
    (seen : interleaved.observe.1 = some topology) (current target : Placement)
    (ignoreAfter now : Nat) :
    let launched := Run.dispatch {} (Plan.make current target topology).moves
      interleaved.observe.2
    Agrees partitions
      (if launched.1.outstanding.size = 0 then .collecting 0
        else .migrating launched.1 ignoreAfter now)
      launched.2 := by
  intro launched
  cases seen
  have joint := Plan.isJoint_make resting.settled.keyed current target
  have ⟨under, _, completed⟩ := resting.underWay.dispatch joint
  split
  · next empty =>
    apply Agrees.collecting
    apply under.resting _ completed
    exact List.isEmpty_iff.2 (List.length_eq_zero_iff.1 empty)
  · exact .migrating ignoreAfter now under

theorem Agrees.reschedule {state : ControllerState} {interleaved : InterleavedCluster}
    (agrees : Agrees partitions state interleaved) (schedule : List (List Nat)) :
    Agrees partitions state { interleaved with schedule } := by
  cases agrees with
  | waiting resting => exact .waiting (resting.reschedule schedule)
  | collecting ignore resting => exact .collecting ignore (resting.reschedule schedule)
  | migrating ignoreAfter lastProgress under =>
    exact .migrating ignoreAfter lastProgress (under.reschedule schedule)

theorem Agrees.endCopy {state : ControllerState} {interleaved : InterleavedCluster}
    (agrees : Agrees partitions state interleaved) (index : Nat) :
    Agrees partitions state (interleaved.endCopy index) := by
  cases agrees with
  | waiting resting => exact .waiting (resting.endCopy index)
  | collecting ignore resting => exact .collecting ignore (resting.endCopy index)
  | migrating ignoreAfter lastProgress under =>
    exact .migrating ignoreAfter lastProgress (under.endCopy index)

theorem Agrees.epochEnd {config : Config α} (untimed : config.migrationTimeout = 0) {now : Nat}
    {before after : ControllerState} {interleaved environment : InterleavedCluster}
    (agrees : Agrees partitions before interleaved)
    (ended : Controller.EpochEnd config now interleaved before after environment) :
    Agrees partitions after environment := by
  cases ended with
  | waiting => exact agrees
  | ignored ignore =>
    cases agrees with
    | collecting _ resting => exact .collecting ignore resting
  | stayed =>
    cases agrees with
    | collecting _ resting => exact .collecting 0 resting.turn.observe
  | planned seen solved ran =>
    cases agrees with
    | collecting _ resting =>
      subst ran
      exact agrees_dispatch resting.turn seen _ _ config.settleEpochs now
  | running => exact agrees
  | abandoned _ _ _ timed => exact absurd untimed timed

theorem Agrees.ackEnd {now index : Nat} {move : Move} {before after : ControllerState}
    {interleaved environment : InterleavedCluster} (agrees : Agrees partitions before interleaved)
    (sent : interleaved.acks[index]? = some move)
    (ended : Controller.AckEnd now move.targetSite
      { interleaved with acks := interleaved.acks.eraseIdx index } before after environment) :
    Agrees partitions after environment ∧
      (before.isMigrating = true → after.isMigrating = false → environment.Realises) := by
  have pending := List.mem_of_getElem? sent
  cases agrees with
  | waiting resting =>
    rw [resting.acks] at pending
    cases pending
  | collecting ignore resting =>
    rw [resting.acks] at pending
    cases pending
  | migrating ignoreAfter lastProgress under =>
    have known := under.known_of_sent pending
    have acked := under.acknowledged sent
    cases ended with
    | ignored _ unknown =>
      rw [unknown _ _ _ rfl] at known
      cases known
    | progress knownToo more =>
      cases known.symm.trans knownToo
      exact ⟨.migrating ignoreAfter now acked, fun _ still => nomatch still⟩
    | complete knownToo last =>
      cases known.symm.trans knownToo
      have ⟨resting, realised⟩ := acked.retireSources last
      exact ⟨.collecting ignoreAfter resting, fun _ _ => realised⟩

theorem isMigrating_of_epochEnd {σ : Type} [Environment σ] {config : Config α} {now : Nat}
    {environment next : σ} {before after : ControllerState} (untimed : config.migrationTimeout = 0)
    (ended : Controller.EpochEnd config now environment before after next)
    (started : before.isMigrating = true) : after.isMigrating = true := by
  cases ended with
  | waiting | ignored | stayed | planned => cases started
  | running => rfl
  | abandoned _ _ _ timed => exact absurd untimed timed

/-- Without a timeout every event keeps controller and cluster in agreement. -/
theorem Agrees.step {closed after : Closed α} (untimed : closed.1.config.migrationTimeout = 0)
    (agrees : Agrees partitions closed.1.state closed.2) (step : Step closed after) :
    after.1.config = closed.1.config ∧ Agrees partitions after.1.state after.2 ∧
      (closed.1.state.isMigrating = true → after.1.state.isMigrating = false →
        after.2.Realises) := by
  cases step with
  | ready now waiting =>
    rw [waiting] at agrees ⊢
    refine ⟨rfl, ?_, fun started => nomatch started⟩
    cases agrees with
    | waiting resting => exact .collecting _ resting
  | telemetry now batch =>
    have state : (closed.1.receive now (.telemetry batch) closed.2).1.state = closed.1.state :=
      Controller.state_receiveBatch closed.1 batch
    refine ⟨Controller.config_receiveBatch closed.1 batch, ?_, ?_⟩
    · rw [state]
      exact agrees
    · rw [state]
      intro started ended
      rw [started] at ended
      cases ended
  | epoch now schedule =>
    have ended := Controller.epochEnd_closeEpoch closed.1 now { closed.2 with schedule }
    refine ⟨Controller.config_closeEpoch .., (agrees.reschedule schedule).epochEnd untimed ended,
      ?_⟩
    intro started still
    have going := isMigrating_of_epochEnd untimed ended started
    rw [going] at still
    cases still
  | copied index =>
    refine ⟨rfl, agrees.endCopy index, ?_⟩
    intro started ended
    rw [started] at ended
    cases ended
  | @acknowledged index move now schedule sent =>
    refine ⟨Controller.config_receiveAck .., ?_⟩
    have ended := Controller.ackEnd_receiveAck closed.1 now move.targetSite
      { closed.2 with acks := closed.2.acks.eraseIdx index, schedule }
    exact (agrees.reschedule schedule).ackEnd sent ended

theorem agrees_of_reachable {config : Config α} {layout : Layout}
    (valid : layout.validate = .ok ()) (untimed : config.migrationTimeout = 0)
    {copyDelay clock : Nat} {closed : Closed α}
    (reachable : Reachable config layout copyDelay clock closed) :
    closed.1.config = config ∧ Agrees layout.partitions closed.1.state closed.2 := by
  induction reachable with
  | refl => exact ⟨rfl, agrees_start config valid copyDelay clock⟩
  | tail _ step ih =>
    have ⟨same, agrees, _⟩ := ih.2.step (ih.1 ▸ untimed) step
    exact ⟨same.trans ih.1, agrees⟩

end Closed

/-- Without a timeout, whatever the order of events: at every moment each partition of the
layout had one or two up sites, and it has exactly one outside a migration; no move was ever
refused; and the acknowledgement that completes a run leaves each moved partition on its target
host and every other one where it was when the run was planned. -/
theorem closed_safe {α : Type} [Scalar α] {config : Config α} {layout : Layout}
    (valid : layout.validate = .ok ()) (untimed : config.migrationTimeout = 0)
    {copyDelay clock : Nat} {closed : Closed α}
    (reachable : Closed.Reachable config layout copyDelay clock closed) :
    (∀ topology ∈ closed.2.cluster.topology :: closed.2.passed,
      topology.IsServed layout.partitions) ∧
    (closed.1.state.isMigrating = false → ∀ partition ∈ layout.partitions,
      (closed.2.cluster.topology.upSitesFor partition).length = 1) ∧
    closed.2.refused = [] ∧
    ∀ after, Closed.Step closed after → closed.1.state.isMigrating = true →
      after.1.state.isMigrating = false → after.2.Realises := by
  have ⟨same, agrees⟩ := Closed.agrees_of_reachable valid untimed reachable
  refine ⟨?_, ?_, agrees.sound.refused, ?_⟩
  · intro topology member
    rcases List.mem_cons.1 member with here | there
    · exact here ▸ agrees.served
    · exact agrees.sound.passed topology there
  · intro still partition member
    exact (agrees.resting still).settled.upSites_eq_one member
  · intro after step
    exact (agrees.step (same ▸ untimed) step).2.2

namespace Closed

variable {α : Type} [Scalar α] {closed : Closed α}

theorem exists_launched {left : InterleavedCluster} {topology : Topology} {evidence : Evidence α}
    {reason : Reason} {candidate : Solution α} (due : closed.1.state = .collecting 0)
    (shown : Environment.snapshot ({ closed.2 with schedule := [] } : InterleavedCluster) =
      (some topology, left))
    (present : (closed.1.gather topology).1 = some evidence)
    (decided : (evidence.decide closed.1.config.searchLimits closed.1.gate).1 =
      .move reason candidate) (now : Nat) :
    let plan := Plan.make evidence.placement candidate.placement evidence.topology
    let launch := Run.dispatch {} plan.moves left
    ∃ launched, Step closed launched ∧ launched.2 = launch.2 ∧
      launched.1.state = if launch.1.outstanding.size = 0 then .collecting 0
        else .migrating launch.1 closed.1.config.settleEpochs now :=
  ⟨_, .epoch now [], Controller.closeEpoch_of_move due shown present decided now⟩

theorem exists_completed {run : Run} {move : Move} {index ignoreAfter lastProgress : Nat}
    (migrating : closed.1.state = .migrating run ignoreAfter lastProgress)
    (sent : closed.2.acks[index]? = some move)
    (known : run.outstanding.get? move.targetSite = some move)
    (last : (run.acknowledged move move.targetSite).isComplete = true) (now : Nat) :
    ∃ after, Step closed after ∧ after.1.state = .collecting ignoreAfter ∧
      after.2 = ((run.acknowledged move move.targetSite).retireSources
        { closed.2 with acks := closed.2.acks.eraseIdx index, schedule := [] }).2 :=
  ⟨_, .acknowledged now [] sent, Controller.receiveAck_of_last migrating known last now _⟩

end Closed

def handoverLayout : Layout := { hosts := 2, partitionsPerHost := 1, spareSites := 1 }

def handoverConfig : Config ℚ := { Config.standard with migrationTimeout := 0 }

def handoverRecord : Record :=
  { txnId := 1, procedure := "pay", isSingle := true, partition := some 201, initiatorHost := 100
    initiatorSite := 1, coordinatorSite := 3, latency := 900, messages := [] }

def handoverSample : Sample :=
  let key : GroupKey := { procedure := "pay", host := 100, scope := .single 201 }
  ((Sample.new 1000).recordTransaction key 900 .far).2.reconcile

def handoverSolution : Solution ℚ where
  placement := .ofPairs [(100, 101), (100, 201)]
  estimate := 450
  moved := 1
  exhaustive := true
  nodes := 5

def handoverMove : Move where
  partition := 201
  sourceHost := 200
  sourceSite := 3
  targetHost := 100
  targetSite := 2

theorem findPlacement_handover :
    findPlacement handoverConfig.searchLimits handoverSample
      (.ofPairs [(100, 101), (200, 201)]) (.ofList [100, 200]) = some handoverSolution := by
  have ordered : (SearchProblem.ofModel
      (.build handoverSample (.ofPairs [(100, 101), (200, 201)]) (.ofList [100, 200]) : Model ℚ)
      (.ofPairs [(100, 101), (200, 201)]) handoverConfig.searchLimits).order = [1, 0] :=
    (SearchProblem.branchingOrder_pair _ _).trans (if_neg (by decide +kernel))
  unfold findPlacement
  simp only [SearchProblem.run_of_order ordered (by decide +kernel)]
  decide +kernel

def beforeHandover : Closed ℚ :=
  let started := Closed.start handoverConfig handoverLayout 5 0
  (started.1.begin 0).receive 1 (.telemetry [handoverRecord]) started.2

def handover : Run × InterleavedCluster :=
  Run.dispatch {} [handoverMove] { beforeHandover.2 with shown := handoverLayout.topology }

theorem reachable_beforeHandover :
    Closed.Reachable handoverConfig handoverLayout 5 0 beforeHandover := by
  let started := Closed.start handoverConfig handoverLayout 5 0
  have ready : Closed.Step started (started.1.begin 0, started.2) := .ready 0 rfl
  exact (Relation.ReflTransGen.single ready).tail (.telemetry 1 [handoverRecord])

theorem gather_beforeHandover :
    (beforeHandover.1.gather handoverLayout.topology).1 =
      some (.of handoverSample handoverLayout.topology) := by
  have reconciled : (beforeHandover.1.replay handoverLayout.topology).sample.reconcile =
      handoverSample := by decide +kernel
  have filled : ¬ (beforeHandover.1.replay handoverLayout.topology).sample.isEmpty = true := by
    decide +kernel
  rw [Controller.evidence_gather]
  simp only [if_neg filled, reconciled]

theorem decide_handover :
    ((Evidence.of handoverSample handoverLayout.topology : Evidence ℚ).decide
      handoverConfig.searchLimits beforeHandover.1.gate).1 = .move .gain handoverSolution := by
  have placed : handoverLayout.topology.placement = .ofPairs [(100, 101), (200, 201)] := by
    decide +kernel
  have hosted : handoverLayout.topology.hosts = .ofList [100, 200] := by decide +kernel
  have solved : (Evidence.of handoverSample handoverLayout.topology : Evidence ℚ).solve
      handoverConfig.searchLimits = some handoverSolution := by
    rw [Evidence.solve_of, placed, hosted, findPlacement_handover]
  unfold Evidence.decide
  rw [solved]
  decide +kernel

theorem exists_handover : ∃ launched : Closed ℚ,
    Closed.Reachable handoverConfig handoverLayout 5 0 launched ∧ launched.2 = handover.2 ∧
      launched.1.state = .migrating handover.1 40 2 := by
  have shown : Environment.snapshot
      ({ beforeHandover.2 with schedule := [] } : InterleavedCluster) =
        (some handoverLayout.topology,
          { beforeHandover.2 with shown := handoverLayout.topology }) := rfl
  have planned : (Plan.make handoverLayout.topology.placement handoverSolution.placement
      handoverLayout.topology).moves = [handoverMove] := by decide +kernel
  have outstanding : handover.1.outstanding.size ≠ 0 := by decide +kernel
  obtain ⟨launched, epoch, dispatched, state⟩ :=
    Closed.exists_launched rfl shown gather_beforeHandover decide_handover 2
  simp only [Evidence.of, planned] at dispatched state
  exact ⟨launched, reachable_beforeHandover.tail epoch, dispatched,
    state.trans (if_neg outstanding)⟩

/-- The second host's partition is copied to the first. When its copy has ended both sites serve
it; its acknowledgement completes the run. -/
theorem closed_safe_completing :
    handoverLayout.partitions = [101, 201] ∧ handoverConfig.migrationTimeout = 0 ∧
    ∃ launched copied after : Closed ℚ,
      Closed.Reachable handoverConfig handoverLayout 5 0 launched ∧
      launched.2.copying = [handoverMove] ∧ Closed.Step launched copied ∧
      copied.2.acks = [handoverMove] ∧
      (∀ topology ∈ copied.2.cluster.topology :: copied.2.passed, topology.IsServed [101, 201]) ∧
      (copied.2.cluster.topology.upSitesFor 201).length = 2 ∧ copied.2.refused = [] ∧
      copied.1.state.isMigrating = true ∧ Closed.Step copied after ∧
      after.1.state = .collecting 40 ∧ after.2.accepted = [handoverMove] ∧ after.2.Realises ∧
      ∀ partition ∈ [101, 201], (after.2.cluster.topology.upSitesFor partition).length = 1 := by
  have partitions : handoverLayout.partitions = [101, 201] := by decide
  have copying : handover.2.copying = [handoverMove] := by decide +kernel
  have acks : (handover.2.endCopy 0).acks = [handoverMove] := by decide +kernel
  have double : ((handover.2.endCopy 0).cluster.topology.upSitesFor 201).length = 2 := by
    decide +kernel
  have known : handover.1.outstanding.get? 2 = some handoverMove := by decide +kernel
  have last : (handover.1.acknowledged handoverMove 2).isComplete = true := by decide +kernel
  have retains : ((handover.1.acknowledged handoverMove 2).retireSources
      { handover.2.endCopy 0 with
        acks := (handover.2.endCopy 0).acks.eraseIdx 0, schedule := [] }).2.accepted =
          [handoverMove] := by decide +kernel
  obtain ⟨⟨controller, cluster⟩, launched, same, state⟩ := exists_handover
  obtain rfl : cluster = handover.2 := same
  let copied : Closed ℚ := (controller, handover.2.endCopy 0)
  have migrating : copied.1.state = .migrating handover.1 40 2 := state
  have sent : copied.2.acks[0]? = some handoverMove := congrArg (·[0]?) acks
  have ended : Closed.Step (controller, handover.2) copied := .copied 0
  obtain ⟨after, step, completed, retired⟩ := Closed.exists_completed migrating sent known last 3
  have ⟨served, _, refused, realised⟩ := closed_safe rfl rfl (launched.tail ended)
  have ⟨_, single, _, _⟩ := closed_safe rfl rfl ((launched.tail ended).tail step)
  have running : copied.1.state.isMigrating = true := by rw [migrating]; rfl
  have still : after.1.state.isMigrating = false := by rw [completed]; rfl
  have accepted : after.2.accepted = [handoverMove] := (congrArg _ retired).trans retains
  rw [partitions] at served single
  exact ⟨partitions, rfl, (controller, handover.2), copied, after, launched, copying, ended, acks,
    served, double, refused, running, step, completed, accepted,
    realised after step running still, single still⟩

end Rebalance
