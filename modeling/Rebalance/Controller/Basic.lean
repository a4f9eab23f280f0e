import Rebalance.Config
import Rebalance.Metrics
import Rebalance.Migration.Run
import Rebalance.Telemetry.Ledger

/-!
The controller as a state machine. Telemetry and acknowledgements arrive as messages, and an
epoch is closed from time to time. While it collects, an epoch's end either burns one ignored
epoch or takes a decision; while a migration runs, telemetry is discarded and acknowledgements
are counted, until the run is complete or has gone too long without progress. Times are in
nanoseconds since 1970.
-/

namespace Rebalance

inductive ControllerState
  | startupWait
  /-- Telemetry counts; `ignore` more epochs pass before a decision. -/
  | collecting (ignore : Nat)
  | migrating (run : Run) (ignoreAfter : Nat) (lastProgress : Nat)
deriving DecidableEq, Inhabited

def ControllerState.phase : ControllerState → Phase
  | startupWait => .startupWait
  | collecting 0 => .collecting
  | collecting (_ + 1) => .cooldown
  | migrating _ _ _ => .migrating

structure Controller (α : Type) where
  config : Config α
  state : ControllerState := .startupWait
  ledger : Ledger
  /-- What the telemetry of the last decision was replayed into. -/
  sample : Sample
  capped : sample.cap = max config.maxSamplesPerGroup 1
  gate : Gate α
  metrics : Metrics α
  epoch : Nat := 0

/-- An epoch's telemetry seen against the topology of the moment of deciding. -/
structure Evidence (α : Type) where
  topology : Topology
  sample : Sample
  placement : Placement
  /-- The estimated execution time under `placement`. -/
  estimate : α
deriving Inhabited

inductive Decision (α : Type)
  | stay
  | infeasible
  | move (reason : Reason) (candidate : Solution α)
deriving DecidableEq, Inhabited

variable {α : Type} [Scalar α] {σ : Type} [Environment σ]

def Evidence.of (sample : Sample) (topology : Topology) : Evidence α where
  topology := topology
  sample := sample
  placement := topology.placement
  estimate := estimatedTime sample topology.placement

def Evidence.solve (evidence : Evidence α) (limits : SearchLimits) : Option (Solution α) :=
  findPlacement limits evidence.sample evidence.placement evidence.topology.hosts

/-- What the gate makes of the evidence. A repartition that is granted without a candidate
asks the optimizer for one after all. -/
def Evidence.decide (evidence : Evidence α) (limits : SearchLimits) (gate : Gate α) :
    Decision α × Gate α :=
  let (verdict, gate) : Verdict α × Gate α :=
    Id.run (gate.evaluate evidence.estimate (pure (evidence.solve limits)))
  match verdict with
  | .infeasible => (.infeasible, gate)
  | .hold _ => (.stay, gate)
  | .repartition reason (some candidate) => (.move reason candidate, gate)
  | .repartition reason none =>
    match evidence.solve limits with
    | some candidate => (.move reason candidate, gate)
    | none => (.infeasible, gate)

namespace Controller

def new (config : Config α) : Controller α where
  config := config
  ledger := { maxRetained := config.maxRetainedRecords }
  sample := .new config.maxSamplesPerGroup
  capped := rfl
  gate := .new config.gate
  metrics := .new

def setState (controller : Controller α) (state : ControllerState) : Controller α :=
  { controller with state, metrics := controller.metrics.setPhase state.phase }

def modifyMetrics (controller : Controller α) (f : Metrics α → Metrics α) : Controller α :=
  { controller with metrics := f controller.metrics }

def begin (controller : Controller α) (now : Nat) : Controller α :=
  (controller.setState (.collecting controller.config.startupIgnoreEpochs)).modifyMetrics
    (·.touch now)

def stop (controller : Controller α) : Controller α :=
  controller.modifyMetrics (·.setPhase .stopped)

def isCollecting (controller : Controller α) : Bool :=
  match controller.state with
  | .collecting _ => true
  | _ => false

def receiveBatch (controller : Controller α) (batch : List Record) : Controller α :=
  let counted := controller.modifyMetrics (·.recordBatch batch.length)
  if batch.isEmpty || counted.isCollecting then
    { counted with ledger := counted.ledger.foldBatch batch }
  else counted

def receiveAck (controller : Controller α) (now : Nat) (site : SiteId) (environment : σ) :
    Controller α × σ :=
  match controller.state with
  | .migrating run ignoreAfter _ =>
    match run.acknowledge site with
    | (.ignored, _) => (controller.modifyMetrics (·.recordAck now false), environment)
    | (.progress _, run) =>
      ({ controller with state := .migrating run ignoreAfter now }.modifyMetrics
        (·.recordAck now true), environment)
    | (.complete, run) =>
      let (_, environment) := run.retireSources environment
      let counted := controller.modifyMetrics fun metrics =>
        (metrics.recordAck now true).recordCompleted now
      (counted.setState (.collecting ignoreAfter), environment)
  | _ => (controller.modifyMetrics (·.recordAck now false), environment)

def receive (controller : Controller α) (now : Nat) (message : Message) (environment : σ) :
    Controller α × σ :=
  match message with
  | .telemetry batch => (controller.receiveBatch batch, environment)
  | .moveDone site => controller.receiveAck now site environment

/-- Starts the migration to a candidate placement, unless nothing needs to or can be moved. -/
def migrate (controller : Controller α) (now : Nat) (evidence : Evidence α) (reason : Reason)
    (candidate : Solution α) (environment : σ) : Controller α × σ :=
  let plan := Plan.make evidence.placement candidate.placement evidence.topology
  let skipped := plan.skipped.length
  if plan.isEmpty then
    (controller.modifyMetrics fun metrics => (metrics.recordMoves now 0 skipped).recordEmptyPlan,
      environment)
  else
    let (run, environment) := Run.dispatch {} plan.moves environment
    let dispatched := run.outstanding.size
    let counted := controller.modifyMetrics (·.recordMoves now dispatched skipped)
    if dispatched = 0 then (counted, environment)
    else
      ((counted.modifyMetrics (·.recordRepartition reason)).setState
        (.migrating run counted.config.settleEpochs now), environment)

def replay (controller : Controller α) (topology : Topology) : Controller α :=
  { controller with
    sample := (controller.ledger.replayInto controller.sample.clear topology).2
    capped := (cap_replayRecords ..).trans controller.capped }

def reconcile (controller : Controller α) : Controller α :=
  { controller with sample := controller.sample.reconcile, capped := controller.capped }

/-- The evidence of the epoch's telemetry; none where this holds nothing to learn from. -/
def gather (controller : Controller α) (topology : Topology) :
    Option (Evidence α) × Controller α :=
  let replayed := controller.replay topology
  if replayed.sample.isEmpty then (none, replayed)
  else
    let reconciled := replayed.reconcile
    (some (.of reconciled.sample topology), reconciled)

/-- Decides on the epoch's telemetry; without a topology or without telemetry nothing is
decided. -/
def decide (controller : Controller α) (now : Nat) (environment : σ) : Controller α × σ :=
  match Environment.snapshot environment with
  | (none, environment) => (controller, environment)
  | (some topology, environment) =>
    match controller.gather topology with
    | (none, controller) => (controller, environment)
    | (some evidence, controller) =>
      let counted := controller.modifyMetrics (·.recordDecision evidence.estimate)
      let (decision, gate) := evidence.decide controller.config.searchLimits counted.gate
      let decided := { counted with gate }
      match decision with
      | .stay => (decided, environment)
      | .infeasible => (decided.modifyMetrics (·.recordInfeasible), environment)
      | .move reason candidate => decided.migrate now evidence reason candidate environment

def clearLedger (controller : Controller α) : Controller α :=
  { controller with ledger := controller.ledger.clear }

def checkProgress (controller : Controller α) (now ignoreAfter lastProgress : Nat) :
    Controller α :=
  let timeout := controller.config.migrationTimeout
  if timeout = 0 || now - lastProgress < timeout then controller
  else (controller.modifyMetrics (·.recordTimeout now)).setState (.collecting ignoreAfter)

def closeEpoch (controller : Controller α) (now : Nat) (environment : σ) : Controller α × σ :=
  let counted :=
    { controller with epoch := controller.epoch + 1 }.modifyMetrics (·.recordEpoch now)
  match counted.state with
  | .startupWait => (counted, environment)
  | .collecting (ignore + 1) =>
    (counted.clearLedger.setState (.collecting ignore), environment)
  | .collecting 0 =>
    let deciding := counted.modifyMetrics (·.setPhase .deciding)
    let (decided, environment) := deciding.decide now environment
    (decided.clearLedger.setState decided.state, environment)
  | .migrating _ ignoreAfter lastProgress =>
    (counted.checkProgress now ignoreAfter lastProgress, environment)

end Controller

end Rebalance
