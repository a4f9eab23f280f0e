import Rebalance.Proofs.Controller.Accounting
import Rebalance.Proofs.Migration.Acknowledgements

/-!
Epochs that end without a migration. There are six ways to that, some before the gate is asked
and some after, the last one with copies that were asked for in vain. After each of them the
controller is ready for the next epoch.
-/

namespace Rebalance

theorem Run.size_dispatch {σ : Type} [Environment σ] {moves : List Move}
    (distinct : (moves.map (·.targetSite)).Nodup) (environment : σ) :
    (dispatch {} moves environment).1.outstanding.size = (accepted moves environment).length := by
  have remaining := (settles_dispatch distinct environment).remaining []
  rwa [pending, List.filter_eq_self.2 fun _ _ => decide_eq_true List.not_mem_nil] at remaining

section
variable {α : Type} {σ : Type} [Environment σ]

def Evidence.movesTo (evidence : Evidence α) (candidate : Solution α) : List Move :=
  (Plan.make evidence.placement candidate.placement evidence.topology).moves

theorem Controller.isMigrating_migrate_iff {controller : Controller α}
    (still : controller.state.isMigrating = false) (now : Nat) (evidence : Evidence α)
    (reason : Reason) (candidate : Solution α) (environment : σ) :
    (controller.migrate now evidence reason candidate environment).1.state.isMigrating = false ↔
      Run.accepted (evidence.movesTo candidate) environment = [] := by
  have distinct : ((evidence.movesTo candidate).map (·.targetSite)).Nodup :=
    (Plan.claimed_make evidence.placement candidate.placement evidence.topology).1
  have booked := Run.size_dispatch distinct environment
  rw [← List.length_eq_zero_iff, ← booked,
    (controller.migrate_eq now evidence reason candidate environment).2.2]
  change (if (Run.dispatch {} (evidence.movesTo candidate) environment).1.outstanding.size = 0 then
    controller.state else _).isMigrating = false ↔ _
  by_cases none : (Run.dispatch {} (evidence.movesTo candidate) environment).1.outstanding.size = 0
  · rw [if_pos none]
    exact iff_of_true still none
  · rw [if_neg none]
    exact iff_of_false Bool.noConfusion none

end

section
variable {α : Type} [Scalar α] {σ : Type} [Environment σ]

namespace Controller

def IsSilent (controller : Controller α) (topology : Topology) : Prop :=
  (controller.ledger.replayInto (.new controller.config.maxSamplesPerGroup) topology).2.isEmpty =
    true

theorem gather_eq_none_iff {controller : Controller α} {topology : Topology} :
    (controller.gather topology).1 = none ↔ controller.IsSilent topology := by
  rw [evidence_gather, sample_replay]
  simp only
  split
  · next empty => exact iff_of_true rfl empty
  · next filled => exact iff_of_false nofun filled

def IsUninformed (controller : Controller α) (environment : σ) : Prop :=
  ∀ topology, (Environment.snapshot environment).1 = some topology → controller.IsSilent topology

/-- The evidence that an epoch's end is decided on, if it is. -/
structure Weighs (controller : Controller α) (environment : σ) (evidence : Evidence α) :
    Prop where
  seen : (Environment.snapshot environment).1 = some evidence.topology
  gathered : (controller.gather evidence.topology).1 = some evidence

def decisionOn (controller : Controller α) (evidence : Evidence α) : Decision α :=
  (evidence.decide controller.config.searchLimits controller.gate).1

/-- The ways in which an epoch ends without a migration. -/
inductive Abstains (controller : Controller α) (environment : σ) : Prop where
  | unseen (failed : (Environment.snapshot environment).1 = none)
  | silent {topology : Topology} (seen : (Environment.snapshot environment).1 = some topology)
      (telemetry : controller.IsSilent topology)
  | infeasible {evidence : Evidence α} (weighs : controller.Weighs environment evidence)
      (decided : controller.decisionOn evidence = .infeasible)
  | held {evidence : Evidence α} (weighs : controller.Weighs environment evidence)
      (decided : controller.decisionOn evidence = .stay)
  /-- The candidate needs no copies, or none that there is room for. -/
  | idle {evidence : Evidence α} {reason : Reason} {candidate : Solution α}
      (weighs : controller.Weighs environment evidence)
      (decided : controller.decisionOn evidence = .move reason candidate)
      (nothing : evidence.movesTo candidate = [])
  /-- The cluster accepts none of the copies. -/
  | refused {evidence : Evidence α} {reason : Reason} {candidate : Solution α}
      (weighs : controller.Weighs environment evidence)
      (decided : controller.decisionOn evidence = .move reason candidate)
      (needed : evidence.movesTo candidate ≠ [])
      (rejected : Run.accepted (evidence.movesTo candidate) (Environment.snapshot environment).2 =
        [])

/-- The controller collects as before. Nothing is left of the epoch but what was counted, and a
sample that the next decision empties; the gate may remember it. -/
structure Rests (controller next : Controller α) : Prop where
  state : next.state = .collecting 0
  ledger : next.ledger = { maxRetained := controller.ledger.maxRetained }
  phase : next.metrics.phase = next.state.phase
  outlier : next.metrics.repartitionsOutlier = controller.metrics.repartitionsOutlier
  gain : next.metrics.repartitionsGain = controller.metrics.repartitionsGain
  starvation : next.metrics.repartitionsStarvation = controller.metrics.repartitionsStarvation
  config : next.config = controller.config
  epoch : next.epoch = controller.epoch + 1

variable {controller : Controller α} {environment : σ} {evidence : Evidence α}

theorem decide_of_isUninformed (uninformed : controller.IsUninformed environment) (now : Nat) :
    ∃ sample capped, ((controller.deciding now).decide now environment).1 =
      { controller.deciding now with sample, capped } := by
  unfold decide
  split
  · exact ⟨controller.sample, controller.capped, rfl⟩
  · next topology left seen =>
    have silent := uninformed topology (congrArg Prod.fst seen)
    have nothing : ((controller.deciding now).gather topology).1 = none :=
      gather_eq_none_iff.2 silent
    obtain ⟨sample, capped, touched⟩ := (controller.deciding now).exists_gather topology
    refine ⟨sample, capped, ?_⟩
    split
    · next gathered =>
      rw [gathered] at touched
      exact touched
    · next gathered =>
      rw [gathered] at nothing
      cases nothing

def weighed (controller : Controller α) (now : Nat) (evidence : Evidence α) : Controller α :=
  let gathered := ((controller.deciding now).gather evidence.topology).2
  { gathered.modifyMetrics (·.recordDecision evidence.estimate) with
    gate := (evidence.decide controller.config.searchLimits controller.gate).2 }

theorem state_weighed (controller : Controller α) (now : Nat) (evidence : Evidence α) :
    (controller.weighed now evidence).state = controller.state := by
  obtain ⟨_, _, touched⟩ := (controller.deciding now).exists_gather evidence.topology
  unfold weighed
  rw [touched]
  rfl

theorem decide_of_weighs (weighs : controller.Weighs environment evidence) (now : Nat) :
    (controller.deciding now).decide now environment =
      match controller.decisionOn evidence with
      | .stay => (controller.weighed now evidence, (Environment.snapshot environment).2)
      | .infeasible =>
        ((controller.weighed now evidence).modifyMetrics (·.recordInfeasible),
          (Environment.snapshot environment).2)
      | .move reason candidate =>
        (controller.weighed now evidence).migrate now evidence reason candidate
          (Environment.snapshot environment).2 := by
  have gathered := weighs.gathered
  rw [evidence_gather] at gathered
  replace gathered : ((controller.deciding now).gather evidence.topology).1 = some evidence :=
    (evidence_gather ..).trans gathered
  obtain ⟨sample, capped, touched⟩ := (controller.deciding now).exists_gather evidence.topology
  have both : (controller.deciding now).gather evidence.topology =
      (some evidence, { controller.deciding now with sample, capped }) :=
    Prod.ext gathered touched
  unfold decide
  split
  · next failed => cases (congrArg Prod.fst failed).symm.trans weighs.seen
  · next topology left seen =>
    obtain rfl := Option.some.inj ((congrArg Prod.fst seen).symm.trans weighs.seen)
    simp only [weighed, both, seen]
    rfl

theorem Weighs.unique {other : Evidence α} (weighs : controller.Weighs environment evidence)
    (weighsToo : controller.Weighs environment other) : other = evidence := by
  have same := Option.some.inj (weighsToo.seen.symm.trans weighs.seen)
  have gathered := weighsToo.gathered
  rw [same] at gathered
  exact Option.some.inj (gathered.symm.trans weighs.gathered)

/-- Where a candidate was decided on, an epoch without a migration is one without a copy. -/
theorem Abstains.rejected (abstains : controller.Abstains environment)
    (weighs : controller.Weighs environment evidence) {reason : Reason} {candidate : Solution α}
    (decided : controller.decisionOn evidence = .move reason candidate) :
    Run.accepted (evidence.movesTo candidate) (Environment.snapshot environment).2 = [] := by
  cases abstains with
  | unseen failed => cases failed.symm.trans weighs.seen
  | silent seen telemetry =>
    cases seen.symm.trans weighs.seen
    cases (gather_eq_none_iff.2 telemetry).symm.trans weighs.gathered
  | infeasible weighsToo decidedToo | held weighsToo decidedToo =>
    obtain rfl := weighs.unique weighsToo
    cases decidedToo.symm.trans decided
  | idle weighsToo decidedToo nothing =>
    obtain rfl := weighs.unique weighsToo
    cases decidedToo.symm.trans decided
    rw [nothing]
    rfl
  | refused weighsToo decidedToo _ rejected =>
    obtain rfl := weighs.unique weighsToo
    cases decidedToo.symm.trans decided
    exact rejected

theorem isMigrating_decide_iff (before : controller.state = .collecting 0) (now : Nat) :
    ((controller.deciding now).decide now environment).1.state.isMigrating = false ↔
      controller.Abstains environment := by
  have still : controller.state.isMigrating = false := by
    rw [before]
    rfl
  cases seen : (Environment.snapshot environment).1 with
  | none =>
    have uninformed : controller.IsUninformed environment := by
      intro topology shown
      cases seen.symm.trans shown
    obtain ⟨_, _, untouched⟩ := decide_of_isUninformed uninformed now
    rw [untouched]
    exact iff_of_true still (.unseen seen)
  | some topology =>
    cases gathered : (controller.gather topology).1 with
    | none =>
      have silent : controller.IsSilent topology := gather_eq_none_iff.1 gathered
      have uninformed : controller.IsUninformed environment := by
        intro other shown
        cases seen.symm.trans shown
        exact silent
      obtain ⟨_, _, untouched⟩ := decide_of_isUninformed uninformed now
      rw [untouched]
      exact iff_of_true still (.silent seen silent)
    | some evidence =>
      obtain rfl : evidence.topology = topology := congrArg Evidence.topology (of_gather gathered)
      have weighs : controller.Weighs environment evidence := ⟨seen, gathered⟩
      have kept := controller.state_weighed now evidence
      rw [decide_of_weighs weighs]
      cases decided : controller.decisionOn evidence with
      | stay => exact iff_of_true (kept ▸ still) (.held weighs decided)
      | infeasible => exact iff_of_true (kept ▸ still) (.infeasible weighs decided)
      | move reason candidate =>
        have held : (controller.weighed now evidence).state.isMigrating = false := kept ▸ still
        have begun := isMigrating_migrate_iff held now evidence reason candidate
          (Environment.snapshot environment).2
        refine begun.trans ⟨fun rejected => ?_, fun abstains => ?_⟩
        · by_cases nothing : evidence.movesTo candidate = []
          · exact .idle weighs decided nothing
          · exact .refused weighs decided nothing rejected
        · exact abstains.rejected weighs decided

theorem rests_of_still (before : controller.state = .collecting 0) {now : Nat}
    (still : ((controller.deciding now).decide now environment).1.state.isMigrating = false) :
    controller.Rests (controller.closeEpoch now environment).1 := by
  have ended := (controller.deciding now).outcome_decide now environment
  rw [closeEpoch_of_due before]
  simp only
  generalize ((controller.deciding now).decide now environment).1 = decided at ended still ⊢
  obtain ⟨config, state, ledger, _, _, gate, metrics, epoch⟩ := controller
  cases before
  obtain ⟨sample, capped, ended⟩ := ended
  rcases ended with rfl | ⟨estimate, judged, outcome⟩
  · exact ⟨rfl, rfl, rfl, rfl, rfl, rfl, rfl, rfl⟩
  · cases outcome with
    | stayed | infeasible | idle | refused => exact ⟨rfl, rfl, rfl, rfl, rfl, rfl, rfl, rfl⟩
    | launched => cases still

theorem reported_epoch (before : controller.state.isMigrating = false) (now : Nat)
    (environment : σ) : (controller.record ⟨.epoch now, environment⟩).2.reported = [] := by
  by_contra reports
  have lawful := controller.lawful_record ⟨.epoch now, environment⟩
  cases before.symm.trans (lawful.isMigrating_of_reported reports)

end Controller

/-- An epoch's end that is decided on starts no migration in just six cases. In each of them the
controller goes on collecting, with nothing of the epoch's telemetry; it reports no site and
counts no repartition. Without a topology or without telemetry the gate is not asked. -/
theorem epoch_without_migration {controller : Controller α}
    (before : controller.state = .collecting 0) (now : Nat) (environment : σ) :
    let recorded := controller.record ⟨.epoch now, environment⟩
    (recorded.2.launches = false ↔ controller.Abstains environment) ∧
      (controller.Abstains environment →
        controller.Rests recorded.1 ∧ recorded.2.reported = []) ∧
        (controller.IsUninformed environment →
          controller.Abstains environment ∧ recorded.1.gate = controller.gate) := by
  intro recorded
  have closed : recorded.1 = (controller.closeEpoch now environment).1 :=
    controller.handle_watched (.epoch now) { inner := environment }
  have still : controller.state.isMigrating = false := by
    rw [before]
    rfl
  have reached : recorded.2.launches =
      ((controller.deciding now).decide now environment).1.state.isMigrating := by
    change (!controller.state.isMigrating && recorded.1.state.isMigrating) = _
    rw [still, closed, Controller.closeEpoch_of_due before]
    rfl
  have ways : _ ↔ controller.Abstains environment := Controller.isMigrating_decide_iff before now
  refine ⟨reached ▸ ways, fun abstains => ⟨?_, Controller.reported_epoch still now environment⟩,
    fun uninformed => ?_⟩
  · rw [closed]
    exact Controller.rests_of_still before (ways.2 abstains)
  · obtain ⟨_, _, same⟩ := Controller.decide_of_isUninformed uninformed now
    constructor
    · rw [← ways, same]
      exact still
    · rw [closed, Controller.closeEpoch_of_due before]
      simp only [same]
      rfl

end

/-- The cluster refuses the only copy that is asked of it. -/
theorem epoch_without_migration_refused :
    let cluster : StagedCluster :=
      { topology := .new [100, 200] [⟨1, 100, some 101, true⟩, ⟨2, 200, none, false⟩]
        rejectMoves := .ofList [2] }
    let record : Record :=
      { txnId := 1, procedure := "pay", isSingle := true, partition := some 101
        initiatorHost := 200, initiatorSite := 2, coordinatorSite := 1
        latency := 900, messages := [] }
    let events : List Event := [.ready 0, .message 1 (.telemetry [record])]
    let controller : Controller Float := (Controller.new .standard).following
      (events.map fun event => { event, environment := cluster })
    let recorded := controller.record ⟨.epoch 2, cluster⟩
    controller.state = .collecting 0 ∧ controller.ledger.records = [record] ∧
      recorded.2.started = [⟨101, 100, 1, 200, 2⟩] ∧ recorded.2.accepted = [] ∧
        controller.Abstains cluster ∧ controller.Rests recorded.1 ∧ recorded.2.reported = [] := by
  intro cluster record events controller recorded
  have before : controller.state = .collecting 0 := by decide +kernel
  have still : recorded.2.launches = false := by decide +kernel
  obtain ⟨ways, rests, _⟩ := epoch_without_migration before 2 cluster
  have abstains := ways.1 still
  exact ⟨before, by decide +kernel, by decide +kernel, by decide +kernel, abstains, rests abstains⟩

end Rebalance
