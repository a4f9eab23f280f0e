import Rebalance.Controller.Basic
import Rebalance.Proofs.Migration.Run

/-!
What one event can come to, for any cluster: which state the controller is in afterwards, and
what the cluster was asked to do.
-/

namespace Rebalance

def ControllerState.isMigrating : ControllerState → Bool
  | migrating _ _ _ => true
  | _ => false

namespace Controller

section
variable {α : Type}

@[simp] theorem state_modifyMetrics (controller : Controller α) (f : Metrics α → Metrics α) :
    (controller.modifyMetrics f).state = controller.state := rfl

@[simp] theorem config_modifyMetrics (controller : Controller α) (f : Metrics α → Metrics α) :
    (controller.modifyMetrics f).config = controller.config := rfl

@[simp] theorem state_setState (controller : Controller α) (state : ControllerState) :
    (controller.setState state).state = state := rfl

@[simp] theorem config_setState (controller : Controller α) (state : ControllerState) :
    (controller.setState state).config = controller.config := rfl

@[simp] theorem config_clearLedger (controller : Controller α) :
    controller.clearLedger.config = controller.config := rfl

/-- A replay starts from an empty sample, whatever the last decision left in it. -/
theorem sample_replay (controller : Controller α) (topology : Topology) :
    (controller.replay topology).sample =
      (controller.ledger.replayInto (.new controller.config.maxSamplesPerGroup) topology).2 := by
  have cleared : controller.sample.clear = .new controller.config.maxSamplesPerGroup :=
    congrArg Sample.ofCap controller.capped
  change (controller.ledger.replayInto controller.sample.clear topology).2 = _
  rw [cleared]

variable {σ : Type} [Environment σ]

theorem migrate_eq (controller : Controller α) (now : Nat) (evidence : Evidence α)
    (reason : Reason) (candidate : Solution α) (environment : σ) :
    let plan := Plan.make evidence.placement candidate.placement evidence.topology
    let launched := Run.dispatch {} plan.moves environment
    let after := controller.migrate now evidence reason candidate environment
    after.1.config = controller.config ∧ after.2 = launched.2 ∧
      after.1.state =
        if launched.1.outstanding.size = 0 then controller.state
        else .migrating launched.1 controller.config.settleEpochs now := by
  unfold migrate
  simp only
  by_cases idle : (Plan.make evidence.placement candidate.placement evidence.topology).isEmpty
  · have bare : (Plan.make evidence.placement candidate.placement evidence.topology).moves = [] :=
      List.isEmpty_iff.1 idle
    rw [if_pos idle, bare]
    exact ⟨rfl, rfl, rfl⟩
  · rw [if_neg idle]
    split
    · exact ⟨rfl, rfl, rfl⟩
    · exact ⟨rfl, rfl, rfl⟩

theorem config_checkProgress (controller : Controller α) (now ignoreAfter lastProgress : Nat) :
    (controller.checkProgress now ignoreAfter lastProgress).config = controller.config := by
  unfold checkProgress
  simp only
  split
  · rfl
  · rfl

/-- What an acknowledgement comes to: the states before and after it, and the environment. -/
inductive AckEnd (now : Nat) (site : SiteId) (environment : σ) :
    ControllerState → ControllerState → σ → Prop where
  | ignored (state : ControllerState)
      (unknown : ∀ run ignoreAfter lastProgress,
        state = .migrating run ignoreAfter lastProgress → run.outstanding.get? site = none) :
      AckEnd now site environment state state environment
  | progress {run : Run} {move : Move} {ignoreAfter lastProgress : Nat}
      (known : run.outstanding.get? site = some move)
      (more : (run.acknowledged move site).isComplete = false) :
      AckEnd now site environment (.migrating run ignoreAfter lastProgress)
        (.migrating (run.acknowledged move site) ignoreAfter now) environment
  | complete {run : Run} {move : Move} {ignoreAfter lastProgress : Nat}
      (known : run.outstanding.get? site = some move)
      (last : (run.acknowledged move site).isComplete = true) :
      AckEnd now site environment (.migrating run ignoreAfter lastProgress)
        (.collecting ignoreAfter) ((run.acknowledged move site).retireSources environment).2

theorem ackEnd_receiveAck (controller : Controller α) (now : Nat) (site : SiteId)
    (environment : σ) :
    AckEnd now site environment controller.state
      (controller.receiveAck now site environment).1.state
      (controller.receiveAck now site environment).2 := by
  unfold receiveAck
  cases before : controller.state with
  | migrating run ignoreAfter lastProgress =>
    cases found : run.outstanding.get? site with
    | none =>
      simp only [Run.acknowledge_of_unknown found, state_modifyMetrics, before]
      apply AckEnd.ignored
      intro known _ _ same
      cases same
      exact found
    | some move =>
      have answer := Run.acknowledge_of_known found
      cases last : (run.acknowledged move site).isComplete with
      | true =>
        rw [last, if_pos rfl] at answer
        simp only [answer]
        exact .complete found last
      | false =>
        rw [last, if_neg Bool.false_ne_true] at answer
        simp only [answer]
        exact .progress found last
  | startupWait =>
    simp only [state_modifyMetrics, before]
    apply AckEnd.ignored
    intro _ _ _ same
    cases same
  | collecting ignore =>
    simp only [state_modifyMetrics, before]
    apply AckEnd.ignored
    intro _ _ _ same
    cases same

theorem receiveAck_of_last {controller : Controller α} {run : Run} {move : Move} {site : SiteId}
    {ignoreAfter lastProgress : Nat}
    (before : controller.state = .migrating run ignoreAfter lastProgress)
    (known : run.outstanding.get? site = some move)
    (last : (run.acknowledged move site).isComplete = true) (now : Nat) (environment : σ) :
    (controller.receiveAck now site environment).1.state = .collecting ignoreAfter ∧
      (controller.receiveAck now site environment).2 =
        ((run.acknowledged move site).retireSources environment).2 := by
  have ended := controller.ackEnd_receiveAck now site environment
  rw [before] at ended
  generalize (controller.receiveAck now site environment).1.state = after at ended ⊢
  generalize (controller.receiveAck now site environment).2 = final at ended ⊢
  cases ended with
  | ignored _ unknown => cases (unknown _ _ _ rfl).symm.trans known
  | progress other more =>
    obtain rfl := Option.some.inj (other.symm.trans known)
    cases more.symm.trans last
  | complete other =>
    obtain rfl := Option.some.inj (other.symm.trans known)
    exact ⟨rfl, rfl⟩

theorem config_receiveAck (controller : Controller α) (now : Nat) (site : SiteId)
    (environment : σ) :
    (controller.receiveAck now site environment).1.config = controller.config := by
  unfold receiveAck
  split
  · split
    · rfl
    · rfl
    · rfl
  · rfl

theorem config_receiveBatch (controller : Controller α) (batch : List Record) :
    (controller.receiveBatch batch).config = controller.config := by
  unfold receiveBatch
  simp only
  split
  · rfl
  · rfl

theorem config_receive (controller : Controller α) (now : Nat) (message : Message)
    (environment : σ) :
    (controller.receive now message environment).1.config = controller.config := by
  cases message with
  | telemetry batch => exact config_receiveBatch ..
  | moveDone site => exact config_receiveAck ..

theorem state_receiveBatch (controller : Controller α) (batch : List Record) :
    (controller.receiveBatch batch).state = controller.state := by
  unfold receiveBatch
  simp only
  split
  · rfl
  · rfl

end

end Controller

variable {α : Type} [Scalar α] {σ : Type} [Environment σ]

theorem Evidence.solve_of_decide {evidence : Evidence α} {limits : SearchLimits} {gate : Gate α}
    {reason : Reason} {candidate : Solution α}
    (decided : (evidence.decide limits gate).1 = .move reason candidate) :
    evidence.solve limits = some candidate := by
  unfold Evidence.decide Gate.evaluate at decided
  by_cases outlier : gate.isOutlier evidence.estimate = true
  · simp only [outlier, if_true, Id.run, pure] at decided
    cases solved : evidence.solve limits with
    | none =>
      rw [solved] at decided
      cases decided
    | some answer =>
      rw [solved] at decided
      cases decided
      rfl
  · simp only [outlier, Id.run, pure, bind] at decided
    cases solved : evidence.solve limits with
    | none =>
      rw [solved] at decided
      cases decided
    | some answer =>
      rw [solved] at decided
      simp only [Gate.judge] at decided
      cases grounds : Gate.grounds { gate with history := gate.history.push evidence.estimate }
          evidence.estimate answer.estimate with
      | none =>
        simp only [grounds] at decided
        cases decided
      | some reason =>
        simp only [grounds] at decided
        cases decided
        rfl

theorem Evidence.solve_of (sample : Sample) (topology : Topology) (limits : SearchLimits) :
    (Evidence.of sample topology : Evidence α).solve limits =
      findPlacement limits sample topology.placement topology.hosts := rfl

namespace Controller

/-- What the end of an epoch comes to: the states before and after it, and the environment. -/
inductive EpochEnd (config : Config α) (now : Nat) (environment : σ) :
    ControllerState → ControllerState → σ → Prop where
  | waiting : EpochEnd config now environment .startupWait .startupWait environment
  | ignored (ignore : Nat) :
      EpochEnd config now environment (.collecting (ignore + 1)) (.collecting ignore) environment
  | stayed :
      EpochEnd config now environment (.collecting 0) (.collecting 0)
        (Environment.snapshot environment).2
  | planned {topology : Topology} {sample : Sample} {candidate : Solution α} {launched : Run × σ}
      (seen : (Environment.snapshot environment).1 = some topology)
      (solved : findPlacement config.searchLimits sample topology.placement topology.hosts =
        some candidate)
      (ran : launched =
        Run.dispatch {} (Plan.make topology.placement candidate.placement topology).moves
          (Environment.snapshot environment).2) :
      EpochEnd config now environment (.collecting 0)
        (if launched.1.outstanding.size = 0 then .collecting 0
          else .migrating launched.1 config.settleEpochs now)
        launched.2
  | running (run : Run) (ignoreAfter lastProgress : Nat) :
      EpochEnd config now environment (.migrating run ignoreAfter lastProgress)
        (.migrating run ignoreAfter lastProgress) environment
  | abandoned (run : Run) (ignoreAfter lastProgress : Nat) (timed : config.migrationTimeout ≠ 0)
      (idle : config.migrationTimeout ≤ now - lastProgress) :
      EpochEnd config now environment (.migrating run ignoreAfter lastProgress)
        (.collecting ignoreAfter) environment

theorem epochEnd_migrate {controller : Controller α} {now : Nat} {environment : σ}
    {topology : Topology} {evidence : Evidence α} {candidate : Solution α} (reason : Reason)
    (before : controller.state = .collecting 0)
    (seen : (Environment.snapshot environment).1 = some topology)
    (shown : evidence.topology = topology ∧ evidence.placement = topology.placement)
    (solved : evidence.solve controller.config.searchLimits = some candidate) :
    let after :=
      controller.migrate now evidence reason candidate (Environment.snapshot environment).2
    EpochEnd controller.config now environment (.collecting 0) after.1.state after.2 := by
  intro after
  obtain ⟨_, environmentAfter, stateAfter⟩ := migrate_eq controller now evidence reason candidate
    (Environment.snapshot environment).2
  rw [shown.1, shown.2, before] at stateAfter
  rw [shown.1, shown.2] at environmentAfter
  rw [Evidence.solve, shown.1, shown.2] at solved
  rw [stateAfter, environmentAfter]
  exact .planned seen solved rfl

/-- The evidence is what the sample says once it is replayed and reconciled. -/
theorem evidence_gather (controller : Controller α) (topology : Topology) :
    (controller.gather topology).1 =
      let replayed := (controller.replay topology).sample
      if replayed.isEmpty then none else some (.of replayed.reconcile topology) := by
  unfold gather
  simp only
  split
  · rfl
  · rfl

theorem of_gather {controller : Controller α} {topology : Topology} {evidence : Evidence α}
    (gathered : (controller.gather topology).1 = some evidence) :
    evidence = .of (controller.replay topology).sample.reconcile topology := by
  rw [evidence_gather] at gathered
  simp only at gathered
  split at gathered
  · cases gathered
  · exact (Option.some.inj gathered).symm

theorem exists_gather (controller : Controller α) (topology : Topology) :
    ∃ sample capped, (controller.gather topology).2 = { controller with sample, capped } := by
  unfold gather
  simp only
  split
  · exact ⟨_, (controller.replay topology).capped, rfl⟩
  · exact ⟨_, (controller.replay topology).reconcile.capped, rfl⟩

theorem config_decide (controller : Controller α) (now : Nat) (environment : σ) :
    (controller.decide now environment).1.config = controller.config := by
  unfold decide
  split
  · rfl
  · next topology _ _ =>
    obtain ⟨sample, capped, gathered⟩ := controller.exists_gather topology
    split
    · next same =>
      rw [same] at gathered
      subst gathered
      rfl
    · next same =>
      rw [same] at gathered
      subst gathered
      simp only
      split
      · rfl
      · rfl
      · exact (migrate_eq ..).1

/-- A decision is taken on the snapshot; it leaves the state alone or starts a run. -/
theorem epochEnd_decide {controller : Controller α} (now : Nat) (environment : σ)
    (before : controller.state = .collecting 0) :
    EpochEnd controller.config now environment (.collecting 0)
      (controller.decide now environment).1.state (controller.decide now environment).2 := by
  unfold decide
  cases seen : Environment.snapshot environment with
  | mk topology? after =>
    have following : (Environment.snapshot environment).2 = after := by rw [seen]
    cases topology? with
    | none =>
      simp only [before, ← following]
      exact .stayed
    | some topology =>
      obtain ⟨sample, capped, touched⟩ := controller.exists_gather topology
      simp only
      split
      · next gathered =>
        rw [gathered] at touched
        subst touched
        simp only [before, ← following]
        exact .stayed
      · next evidence _ gathered =>
        rw [gathered] at touched
        subst touched
        simp only
        split
        · simp only [state_modifyMetrics, before, ← following]
          exact .stayed
        · simp only [state_modifyMetrics, before, ← following]
          exact .stayed
        · next reason candidate decided =>
          have solved := evidence.solve_of_decide decided
          have shown := of_gather (congrArg Prod.fst gathered)
          have present : (Environment.snapshot environment).1 = some topology := by rw [seen]
          have due (gate metrics) :
              ({ controller with sample, capped, gate, metrics } : Controller α).state =
                .collecting 0 := before
          rw [← following]
          exact epochEnd_migrate reason (due _ _) present
            ⟨congrArg Evidence.topology shown, congrArg Evidence.placement shown⟩ solved

def counted (controller : Controller α) (now : Nat) : Controller α :=
  { controller with epoch := controller.epoch + 1 }.modifyMetrics (·.recordEpoch now)

def deciding (controller : Controller α) (now : Nat) : Controller α :=
  (controller.counted now).modifyMetrics (·.setPhase .deciding)

/-- What the end of an epoch does, by the state that it finds. -/
inductive Closing (controller : Controller α) (now : Nat) (environment : σ) :
    Controller α × σ → Prop where
  | waiting (before : controller.state = .startupWait) :
      Closing controller now environment (controller.counted now, environment)
  | ignored {ignore : Nat} (before : controller.state = .collecting (ignore + 1)) :
      Closing controller now environment
        ((controller.counted now).clearLedger.setState (.collecting ignore), environment)
  | decided {after : Controller α × σ} (before : controller.state = .collecting 0)
      (same : (controller.deciding now).decide now environment = after) :
      Closing controller now environment (after.1.clearLedger.setState after.1.state, after.2)
  | running {run : Run} {ignoreAfter lastProgress : Nat}
      (before : controller.state = .migrating run ignoreAfter lastProgress) :
      Closing controller now environment
        ((controller.counted now).checkProgress now ignoreAfter lastProgress, environment)

theorem closing_closeEpoch (controller : Controller α) (now : Nat) (environment : σ) :
    Closing controller now environment (controller.closeEpoch now environment) := by
  obtain ⟨config, state, ledger, sample, capped, gate, metrics, epoch⟩ := controller
  cases state with
  | startupWait => exact .waiting rfl
  | collecting ignore =>
    cases ignore with
    | zero => exact .decided rfl rfl
    | succ ignore => exact .ignored rfl
  | migrating run ignoreAfter lastProgress => exact .running rfl

/-- The end of an epoch that is decided on takes its state and its gate from the decision. -/
theorem closeEpoch_of_due {controller : Controller α} (before : controller.state = .collecting 0)
    (now : Nat) (environment : σ) :
    controller.closeEpoch now environment =
      let decided := (controller.deciding now).decide now environment
      (decided.1.clearLedger.setState decided.1.state, decided.2) := by
  have closing := controller.closing_closeEpoch now environment
  generalize controller.closeEpoch now environment = after at closing ⊢
  cases closing with
  | waiting other | ignored other | running other => cases before.symm.trans other
  | decided _ same => rw [same]

section
variable {controller : Controller α} {environment left : σ} {topology : Topology}
variable {evidence : Evidence α} {reason : Reason} {candidate : Solution α}

theorem decide_of_move (shown : Environment.snapshot environment = (some topology, left))
    (present : (controller.gather topology).1 = some evidence)
    (decided : (evidence.decide controller.config.searchLimits controller.gate).1 =
      .move reason candidate) (now : Nat) :
    ∃ gathered : Controller α, gathered.state = controller.state ∧
      gathered.config = controller.config ∧
        controller.decide now environment =
          gathered.migrate now evidence reason candidate left := by
  obtain ⟨sample, capped, touched⟩ := controller.exists_gather topology
  have asked : controller.gather topology = (some evidence, { controller with sample, capped }) :=
    Prod.ext present touched
  unfold decide
  simp only [shown, asked]
  generalize judged : evidence.decide _ _ = decision
  obtain ⟨decision, gate⟩ := decision
  obtain rfl : decision = .move reason candidate := (congrArg Prod.fst judged).symm.trans decided
  let gathered : Controller α := { controller with sample, capped }
  exact ⟨{ gathered.modifyMetrics (·.recordDecision evidence.estimate) with gate }, rfl, rfl, rfl⟩

theorem closeEpoch_of_move (due : controller.state = .collecting 0)
    (shown : Environment.snapshot environment = (some topology, left))
    (present : (controller.gather topology).1 = some evidence)
    (decided : (evidence.decide controller.config.searchLimits controller.gate).1 =
      .move reason candidate) (now : Nat) :
    let plan := Plan.make evidence.placement candidate.placement evidence.topology
    let launched := Run.dispatch {} plan.moves left
    (controller.closeEpoch now environment).2 = launched.2 ∧
      (controller.closeEpoch now environment).1.state =
        if launched.1.outstanding.size = 0 then .collecting 0
        else .migrating launched.1 controller.config.settleEpochs now := by
  have presentToo : ((controller.deciding now).gather topology).1 = some evidence := by
    rw [evidence_gather] at present ⊢
    exact present
  obtain ⟨gathered, state, config, decides⟩ := decide_of_move shown presentToo decided now
  obtain ⟨_, environmentAfter, stateAfter⟩ := gathered.migrate_eq now evidence reason candidate left
  rw [state, config] at stateAfter
  rw [closeEpoch_of_due due, decides]
  refine ⟨environmentAfter, stateAfter.trans ?_⟩
  rw [show (controller.deciding now).state = .collecting 0 from due]
  rfl

end

theorem config_closeEpoch (controller : Controller α) (now : Nat) (environment : σ) :
    (controller.closeEpoch now environment).1.config = controller.config := by
  have closing := controller.closing_closeEpoch now environment
  generalize controller.closeEpoch now environment = after at closing ⊢
  cases closing with
  | waiting | ignored => rfl
  | decided before same => exact same ▸ config_decide ..
  | running => exact config_checkProgress ..

theorem epochEnd_closeEpoch (controller : Controller α) (now : Nat) (environment : σ) :
    EpochEnd controller.config now environment controller.state
      (controller.closeEpoch now environment).1.state
      (controller.closeEpoch now environment).2 := by
  have closing := controller.closing_closeEpoch now environment
  generalize controller.closeEpoch now environment = after at closing ⊢
  cases closing with
  | waiting before =>
    change EpochEnd _ now environment controller.state controller.state environment
    rw [before]
    exact .waiting
  | @ignored ignore before =>
    rw [before]
    exact .ignored ignore
  | decided before same =>
    subst same
    have due : (controller.deciding now).state = .collecting 0 := before
    rw [before]
    exact epochEnd_decide now environment due
  | @running run ignoreAfter lastProgress before =>
    have still : (controller.counted now).state = .migrating run ignoreAfter lastProgress := before
    rw [before]
    unfold checkProgress
    simp only
    split
    · rw [still]
      exact .running run ignoreAfter lastProgress
    · next late =>
      rw [Bool.or_eq_true, not_or] at late
      apply EpochEnd.abandoned run ignoreAfter lastProgress
      · exact fun untimed => late.1 (decide_eq_true untimed)
      · exact Nat.le_of_not_lt fun early => late.2 (decide_eq_true early)

end Controller

end Rebalance
