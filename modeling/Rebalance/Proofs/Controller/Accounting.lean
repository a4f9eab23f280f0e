import Mathlib.Algebra.GroupWithZero.Nat
import Rebalance.Proofs.Controller.Course

/-!
The counters of a controller. What an event adds to each of them is told by its entry in the
log, so they agree with each other, with the state, and with what was handled.
-/

namespace Rebalance

def ControllerState.outstanding : ControllerState → Nat
  | migrating run _ _ => run.outstanding.size
  | _ => 0

namespace Entry

def finishes (entry : Entry) : Bool :=
  entry.before.isMigrating && !entry.after.isMigrating && !entry.event.isEpoch

def abandons (entry : Entry) : Bool :=
  entry.before.isMigrating && !entry.after.isMigrating && entry.event.isEpoch

def forsaken (entry : Entry) : Nat := if entry.abandons then entry.before.outstanding else 0

def dispatched (entry : Entry) : Nat := if entry.launches then entry.after.outstanding else 0

theorem accepts_add_ignored (entry : Entry) :
    entry.accepts.toNat + (entry.event.acked?.isSome && !entry.accepts).toNat =
      entry.event.acked?.toList.length := by
  unfold accepts ControllerState.accepts
  cases entry.event.acked? with
  | none => cases entry.before <;> rfl
  | some site =>
    cases entry.before with
    | startupWait | collecting => rfl
    | migrating run =>
      simp only
      cases (run.acknowledge site).1 != .ignored <;> rfl

end Entry

theorem Run.size_acknowledged {run : Run} {site : SiteId} {move : Move}
    (known : run.outstanding.get? site = some move) :
    (run.acknowledged move site).outstanding.size + 1 = run.outstanding.size := by
  have counted := (IdMap.values_erase_perm known).length_eq
  rwa [List.length_cons, IdMap.length_values, IdMap.length_values] at counted

theorem Run.size_eq_zero_of_isComplete {run : Run} (complete : run.isComplete = true) :
    run.outstanding.size = 0 :=
  congrArg List.length (List.isEmpty_iff.1 complete)

/-- Each move that is dispatched is waited for until it is acknowledged or given up. -/
theorem Course.outstanding {α : Type} {config : Config α} {entry : Entry}
    (course : Course config entry.event entry.before entry.after) :
    entry.before.outstanding + entry.dispatched =
      entry.accepts.toNat + entry.after.outstanding + entry.forsaken := by
  obtain ⟨event, before, requests, after⟩ := entry
  unfold Entry.dispatched Entry.forsaken Entry.accepts
  cases course with
  | waits | begins | collects | ignores | stays | launches => rfl
  | keeps run lastProgress unknown =>
    rw [ControllerState.accepts_of_unknown unknown]
    exact Nat.add_comm ..
  | progresses now known =>
    have counted := Run.size_acknowledged known
    rw [ControllerState.accepts_of_known known]
    exact counted.symm.trans (Nat.add_comm ..)
  | @completes now lastProgress site run move known last =>
    have counted := Run.size_acknowledged known
    rw [Run.size_eq_zero_of_isComplete last] at counted
    rw [ControllerState.accepts_of_known known]
    exact counted.symm
  | abandons => exact Nat.add_comm ..

namespace Metrics

variable {α : Type}

def outcomes (metrics : Metrics α) : Nat :=
  metrics.repartitions + metrics.infeasibleSolves + metrics.emptyPlans

theorem outcomes_recordInfeasible (metrics : Metrics α) :
    metrics.recordInfeasible.outcomes = metrics.outcomes + 1 :=
  Nat.add_right_comm (metrics.repartitions + metrics.infeasibleSolves) 1 metrics.emptyPlans

theorem outcomes_recordEmptyPlan (metrics : Metrics α) :
    metrics.recordEmptyPlan.outcomes = metrics.outcomes + 1 := rfl

theorem repartitions_recordRepartition (metrics : Metrics α) (reason : Reason) :
    (metrics.recordRepartition reason).repartitions = metrics.repartitions + 1 := by
  unfold repartitions
  cases reason with
  | outlier | gain | starvation =>
    simp only [recordRepartition]
    omega

theorem outcomes_recordRepartition (metrics : Metrics α) (reason : Reason) :
    (metrics.recordRepartition reason).outcomes = metrics.outcomes + 1 := by
  have granted := metrics.repartitions_recordRepartition reason
  have same : (metrics.recordRepartition reason).infeasibleSolves = metrics.infeasibleSolves ∧
      (metrics.recordRepartition reason).emptyPlans = metrics.emptyPlans := by
    cases reason with
    | outlier | gain | starvation => exact ⟨rfl, rfl⟩
  unfold outcomes
  omega

end Metrics

structure Counts {α : Type} (entry : Entry) (before after : Controller α) : Prop where
  epoch : after.epoch = before.epoch + entry.event.isEpoch.toNat
  epochs : after.metrics.epochs = before.metrics.epochs + entry.event.isEpoch.toNat
  /-- At most the end of an epoch is a decision, -/
  decisions : after.metrics.decisions ≤ before.metrics.decisions + entry.event.isEpoch.toNat
  /-- and a decision has at most one outcome that is counted. -/
  outcomes : after.metrics.outcomes + before.metrics.decisions ≤
    before.metrics.outcomes + after.metrics.decisions
  repartitions : after.metrics.repartitions = before.metrics.repartitions + entry.launches.toNat
  completed : after.metrics.migrationsCompleted =
    before.metrics.migrationsCompleted + entry.finishes.toNat
  timeouts : after.metrics.migrationTimeouts =
    before.metrics.migrationTimeouts + entry.abandons.toNat
  acked : after.metrics.movesAcked = before.metrics.movesAcked + entry.accepts.toNat
  ignored : after.metrics.acksIgnored =
    before.metrics.acksIgnored + (entry.event.acked?.isSome && !entry.accepts).toNat
  dispatched : after.metrics.movesDispatched = before.metrics.movesDispatched + entry.dispatched

namespace Controller

section
variable {α : Type} {σ : Type} [Environment σ]

def entry (controller : Controller α) (event : Event) (requests : List Request)
    (after : Controller α) : Entry :=
  ⟨event, controller.state, requests, after.state⟩

theorem counts_receiveBatch (controller : Controller α) (now : Nat) (batch : List Record)
    (requests : List Request) :
    Counts (controller.entry (.message now (.telemetry batch)) requests
      (controller.receiveBatch batch)) controller (controller.receiveBatch batch) := by
  obtain ⟨config, state, ledger, sample, capped, gate, metrics, epoch⟩ := controller
  cases state with
  | startupWait | collecting | migrating =>
    cases batch with
    | nil | cons => exact ⟨rfl, rfl, le_rfl, le_rfl, rfl, rfl, rfl, rfl, rfl, rfl⟩

theorem counts_receiveAck (controller : Controller α) (now : Nat) (site : SiteId)
    (environment : σ) (requests : List Request) :
    Counts (controller.entry (.message now (.moveDone site)) requests
        (controller.receiveAck now site environment).1)
      controller (controller.receiveAck now site environment).1 := by
  obtain ⟨config, state, ledger, sample, capped, gate, metrics, epoch⟩ := controller
  cases state with
  | startupWait | collecting =>
    exact ⟨rfl, rfl, le_rfl, le_rfl, rfl, rfl, rfl, rfl, rfl, rfl⟩
  | migrating run ignoreAfter lastProgress =>
    unfold receiveAck
    cases answer : run.acknowledge site with
    | mk outcome next =>
      have accepts : (ControllerState.migrating run ignoreAfter lastProgress).accepts
          (.message now (.moveDone site)) = (outcome != .ignored) := by
        simp only [ControllerState.accepts, Event.acked?, answer]
      simp only [answer]
      cases outcome with
      | ignored | progress | complete =>
        refine ⟨rfl, rfl, le_rfl, le_rfl, rfl, rfl, rfl, ?_, ?_, rfl⟩
        · simp only [Entry.accepts, entry, accepts]
          rfl
        · simp only [Entry.accepts, entry, accepts]
          rfl

theorem counts_checkProgress (controller : Controller α) {run : Run}
    {now ignoreAfter lastProgress : Nat} (requests : List Request)
    (before : controller.state = .migrating run ignoreAfter lastProgress) :
    Counts (controller.entry (.epoch now) requests
        ((controller.counted now).checkProgress now ignoreAfter lastProgress))
      controller ((controller.counted now).checkProgress now ignoreAfter lastProgress) := by
  obtain ⟨config, state, ledger, sample, capped, gate, metrics, epoch⟩ := controller
  cases before
  unfold checkProgress
  simp only
  split
  · exact ⟨rfl, rfl, Nat.le_succ _, le_rfl, rfl, rfl, rfl, rfl, rfl, rfl⟩
  · exact ⟨rfl, rfl, Nat.le_succ _, le_rfl, rfl, rfl, rfl, rfl, rfl, rfl⟩

inductive Outcome (now : Nat) (decided : Controller α) : Controller α → Prop where
  | stayed : Outcome now decided decided
  | infeasible : Outcome now decided (decided.modifyMetrics (·.recordInfeasible))
  | idle (skipped : Nat) :
      Outcome now decided
        (decided.modifyMetrics fun metrics => (metrics.recordMoves now 0 skipped).recordEmptyPlan)
  | refused (skipped : Nat) :
      Outcome now decided (decided.modifyMetrics (·.recordMoves now 0 skipped))
  | launched (skipped : Nat) (reason : Reason) (run : Run) :
      Outcome now decided
        (((decided.modifyMetrics (·.recordMoves now run.outstanding.size skipped)).modifyMetrics
          (·.recordRepartition reason)).setState (.migrating run decided.config.settleEpochs now))

theorem outcome_migrate (controller : Controller α) (now : Nat) (evidence : Evidence α)
    (reason : Reason) (candidate : Solution α) (environment : σ) :
    Outcome now controller (controller.migrate now evidence reason candidate environment).1 := by
  unfold migrate
  simp only
  split
  · exact .idle _
  · split
    · next none =>
      rw [none]
      exact .refused _
    · exact .launched _ reason _

theorem phase_receiveBatch (controller : Controller α) (batch : List Record)
    (shown : controller.metrics.phase = controller.state.phase) :
    (controller.receiveBatch batch).metrics.phase =
      (controller.receiveBatch batch).state.phase := by
  have counted :
      (controller.metrics.recordBatch batch.length).phase = controller.metrics.phase := by
    unfold Metrics.recordBatch
    split
    · rfl
    · rfl
  unfold receiveBatch
  simp only
  split
  · exact counted.trans shown
  · exact counted.trans shown

theorem phase_receiveAck (controller : Controller α) (now : Nat) (site : SiteId)
    (environment : σ) (shown : controller.metrics.phase = controller.state.phase) :
    (controller.receiveAck now site environment).1.metrics.phase =
      (controller.receiveAck now site environment).1.state.phase := by
  unfold receiveAck
  split
  · next before =>
    split
    · exact shown
    · rw [before] at shown
      exact shown
    · rfl
  · exact shown

end

variable {α : Type} [Scalar α] {σ : Type} [Environment σ]

/-- A decision may touch the sample. Else it is not taken at all, or counted, with the gate as it
leaves it. -/
theorem outcome_decide (controller : Controller α) (now : Nat) (environment : σ) :
    ∃ sample capped,
      (controller.decide now environment).1 = { controller with sample, capped } ∨
        ∃ estimate gate,
          Outcome now
            { controller.modifyMetrics (·.recordDecision estimate) with sample, capped, gate }
            (controller.decide now environment).1 := by
  unfold decide
  split
  · exact ⟨controller.sample, controller.capped, .inl rfl⟩
  · next topology _ _ =>
    obtain ⟨sample, capped, touched⟩ := controller.exists_gather topology
    refine ⟨sample, capped, ?_⟩
    split
    · next gathered =>
      rw [gathered] at touched
      exact .inl touched
    · next evidence _ gathered =>
      rw [gathered] at touched
      subst touched
      refine .inr ⟨evidence.estimate,
        (evidence.decide controller.config.searchLimits controller.gate).2, ?_⟩
      simp only
      split
      · exact .stayed
      · exact .infeasible
      · exact outcome_migrate ..

theorem counts_decide (controller : Controller α) (now : Nat) (environment : σ)
    (requests : List Request) (before : controller.state = .collecting 0) {after : Controller α}
    (decided : ((controller.deciding now).decide now environment).1 = after) :
    Counts (controller.entry (.epoch now) requests after) controller after := by
  have ended := (controller.deciding now).outcome_decide now environment
  rw [decided] at ended
  obtain ⟨config, state, ledger, _, _, gate, metrics, epoch⟩ := controller
  cases before
  obtain ⟨sample, capped, ended⟩ := ended
  rcases ended with rfl | ⟨estimate, gate, outcome⟩
  · exact ⟨rfl, rfl, Nat.le_succ _, le_rfl, rfl, rfl, rfl, rfl, rfl, rfl⟩
  · -- The decision itself is counted, and beside it at most one of its outcomes.
    have decides {outcomes : Nat} (counted : outcomes = metrics.outcomes + 1) :
        outcomes + metrics.decisions ≤ metrics.outcomes + (metrics.decisions + 1) := by omega
    cases outcome with
    | stayed | refused => exact ⟨rfl, rfl, le_rfl, Nat.le_succ _, rfl, rfl, rfl, rfl, rfl, rfl⟩
    | infeasible =>
      have counted := decides metrics.outcomes_recordInfeasible
      exact ⟨rfl, rfl, le_rfl, counted, rfl, rfl, rfl, rfl, rfl, rfl⟩
    | idle =>
      have counted := decides metrics.outcomes_recordEmptyPlan
      exact ⟨rfl, rfl, le_rfl, counted, rfl, rfl, rfl, rfl, rfl, rfl⟩
    | launched skipped reason run =>
      have counted := decides (metrics.outcomes_recordRepartition reason)
      have granted := metrics.repartitions_recordRepartition reason
      cases reason with
      | outlier | gain | starvation =>
        exact ⟨rfl, rfl, le_rfl, counted, granted, rfl, rfl, rfl, rfl, rfl⟩

theorem counts_closeEpoch (controller : Controller α) (now : Nat) (environment : σ)
    (requests : List Request) :
    Counts (controller.entry (.epoch now) requests (controller.closeEpoch now environment).1)
      controller (controller.closeEpoch now environment).1 := by
  have closing := controller.closing_closeEpoch now environment
  generalize controller.closeEpoch now environment = after at closing ⊢
  cases closing with
  | waiting before =>
    obtain ⟨config, state, ledger, sample, capped, gate, metrics, epoch⟩ := controller
    cases before
    exact ⟨rfl, rfl, Nat.le_succ _, le_rfl, rfl, rfl, rfl, rfl, rfl, rfl⟩
  | ignored before =>
    obtain ⟨config, state, ledger, sample, capped, gate, metrics, epoch⟩ := controller
    cases before
    exact ⟨rfl, rfl, Nat.le_succ _, le_rfl, rfl, rfl, rfl, rfl, rfl, rfl⟩
  | decided before same =>
    -- Neither the ledger nor the phase is a counter.
    exact { controller.counts_decide now environment requests before (congrArg Prod.fst same) with }
  | running before => exact controller.counts_checkProgress requests before

theorem phase_closeEpoch (controller : Controller α) (now : Nat) (environment : σ)
    (shown : controller.metrics.phase = controller.state.phase) :
    (controller.closeEpoch now environment).1.metrics.phase =
      (controller.closeEpoch now environment).1.state.phase := by
  have closing := controller.closing_closeEpoch now environment
  generalize controller.closeEpoch now environment = after at closing ⊢
  cases closing with
  | waiting => exact shown
  | ignored | decided => rfl
  | running =>
    unfold checkProgress
    simp only
    split
    · exact shown
    · rfl

theorem counts_record (controller : Controller α) (occasion : Occasion σ) :
    Counts (controller.record occasion).2 controller (controller.record occasion).1 := by
  obtain ⟨event, environment⟩ := occasion
  cases event with
  | ready now =>
    obtain ⟨config, state, ledger, sample, capped, gate, metrics, epoch⟩ := controller
    cases state with
    | startupWait | collecting | migrating =>
      exact ⟨rfl, rfl, le_rfl, le_rfl, rfl, rfl, rfl, rfl, rfl, rfl⟩
  | message now message =>
    cases message with
    | telemetry batch => exact controller.counts_receiveBatch now batch []
    | moveDone site => exact controller.counts_receiveAck now site _ _
  | epoch now => exact controller.counts_closeEpoch now _ _

theorem phase_record (controller : Controller α) (occasion : Occasion σ)
    (shown : controller.metrics.phase = controller.state.phase) :
    (controller.record occasion).1.metrics.phase = (controller.record occasion).1.state.phase := by
  obtain ⟨event, environment⟩ := occasion
  cases event with
  | ready now =>
    unfold record handle
    simp only
    split
    · rfl
    · exact shown
  | message now message =>
    cases message with
    | telemetry batch => exact controller.phase_receiveBatch batch shown
    | moveDone site => exact controller.phase_receiveAck now site _ shown
  | epoch now => exact controller.phase_closeEpoch now _ shown

def following : Controller α → List (Occasion σ) → Controller α
  | controller, [] => controller
  | controller, occasion :: rest => (controller.record occasion).1.following rest

theorem following_concat (controller : Controller α) (occasions : List (Occasion σ))
    (occasion : Occasion σ) :
    controller.following (occasions ++ [occasion]) =
      ((controller.following occasions).record occasion).1 := by
  induction occasions generalizing controller with
  | nil => rfl
  | cons first occasions ih => exact ih (controller.record first).1

end Controller

/-- How the counters of a controller with this log agree. -/
structure Balanced {α : Type} (controller : Controller α) (log : List Entry) : Prop where
  /-- Each migration was completed, was given up or is under way. -/
  migrations : controller.metrics.repartitions =
    controller.metrics.migrationsCompleted + controller.metrics.migrationTimeouts +
      controller.state.isMigrating.toNat
  outcomes : controller.metrics.repartitions + controller.metrics.infeasibleSolves +
    controller.metrics.emptyPlans ≤ controller.metrics.decisions
  decisions : controller.metrics.decisions ≤ controller.metrics.epochs
  epochs : controller.metrics.epochs = controller.epoch
  acks : controller.metrics.movesAcked + controller.metrics.acksIgnored = (Entry.acks log).length
  /-- Each dispatched move was acknowledged, is waited for, or was so when its run was given up. -/
  moves : controller.metrics.movesDispatched =
    controller.metrics.movesAcked + controller.state.outstanding + (log.map Entry.forsaken).sum
  phase : controller.metrics.phase = controller.state.phase

/-- A migration begins with its launch, and with its end it is either completed or given up. -/
theorem Entry.migrating_eq (entry : Entry) :
    entry.before.isMigrating.toNat + entry.launches.toNat =
      entry.finishes.toNat + entry.abandons.toNat + entry.after.isMigrating.toNat := by
  unfold launches finishes abandons
  cases entry.before.isMigrating <;> cases entry.after.isMigrating <;>
    cases entry.event.isEpoch <;> rfl

section
variable {α : Type} {controller after : Controller α} {entry : Entry} {log : List Entry}

theorem Balanced.next (balanced : Balanced controller log) (counts : Counts entry controller after)
    (course : Course controller.config entry.event entry.before entry.after)
    (before : entry.before = controller.state) (reached : entry.after = after.state)
    (shown : after.metrics.phase = after.state.phase) : Balanced after (log ++ [entry]) := by
  have outstanding := course.outstanding
  have migrating := entry.migrating_eq
  have told := entry.accepts_add_ignored
  rw [before, reached] at outstanding migrating
  obtain ⟨migrations, outcomes, decisions, epochs, acks, moves, _⟩ := balanced
  constructor
  · rw [counts.repartitions, counts.completed, counts.timeouts]
    omega
  · have counted := counts.outcomes
    unfold Metrics.outcomes at counted
    omega
  · have counted := counts.decisions
    rw [counts.epochs]
    omega
  · rw [counts.epochs, counts.epoch, epochs]
  · rw [Entry.acks_concat, List.length_append, ← told, ← acks, counts.acked, counts.ignored]
    omega
  · rw [counts.dispatched, counts.acked, List.map_append, List.sum_append, List.map_singleton,
      List.sum_singleton]
    omega
  · exact shown

variable [Scalar α] {σ : Type} [Environment σ]

theorem Balanced.record (balanced : Balanced controller log)
    (settled : controller.state.Settles controller.config.settleEpochs) (occasion : Occasion σ) :
    Balanced (controller.record occasion).1 (log ++ [(controller.record occasion).2]) :=
  balanced.next (controller.counts_record occasion) (controller.course_record settled occasion)
    rfl rfl (controller.phase_record occasion balanced.phase)

theorem Balanced.following (balanced : Balanced controller log)
    (settled : controller.state.Settles controller.config.settleEpochs)
    (occasions : List (Occasion σ)) :
    Balanced (controller.following occasions) (log ++ controller.log occasions) := by
  induction occasions generalizing controller log with
  | nil => rwa [Controller.log, List.append_nil]
  | cons occasion occasions ih =>
    have config := controller.config_record occasion
    have course := controller.course_record settled occasion
    have later := ih (balanced.record settled occasion) (config ▸ course.settles)
    rwa [List.append_assoc] at later

end

/-- Whatever a controller is told, and whatever the cluster answers, its counters agree. -/
theorem balanced_following {α : Type} [Scalar α] {σ : Type} [Environment σ] (config : Config α)
    (occasions : List (Occasion σ)) :
    Balanced ((Controller.new config).following occasions)
      ((Controller.new config).log occasions) := by
  have fresh : Balanced (Controller.new config) [] := ⟨rfl, le_rfl, le_rfl, rfl, rfl, rfl, rfl⟩
  exact fresh.following trivial occasions

end Rebalance
