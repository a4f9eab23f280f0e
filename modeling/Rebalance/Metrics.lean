import Rebalance.Gate.Basic

/-!
The controller's counters, as shown to whoever watches it.
-/

namespace Rebalance

inductive Phase
  | startupWait
  | collecting
  | cooldown
  | deciding
  | migrating
  | stopped
deriving DecidableEq, Inhabited

def Phase.text : Phase → String
  | .startupWait => "startup_wait"
  | .collecting => "collecting"
  | .cooldown => "cooldown"
  | .deciding => "deciding"
  | .migrating => "migrating"
  | .stopped => "stopped"

structure Metrics (α : Type) where
  phase : Phase := .startupWait
  /-- Completed epochs, ignored ones included. -/
  epochs : Nat := 0
  /-- Epochs that reached the gate. -/
  decisions : Nat := 0
  repartitionsOutlier : Nat := 0
  repartitionsGain : Nat := 0
  repartitionsStarvation : Nat := 0
  infeasibleSolves : Nat := 0
  /-- Decisions whose candidate needed no moves. -/
  emptyPlans : Nat := 0
  movesSkipped : Nat := 0
  movesDispatched : Nat := 0
  movesAcked : Nat := 0
  acksIgnored : Nat := 0
  migrationsCompleted : Nat := 0
  migrationTimeouts : Nat := 0
  telemetryRecords : Nat := 0
  emptyBatches : Nat := 0
  /-- The estimate of the current placement at the latest decision. -/
  lastEstimate : α
  /-- When progress was last made, in nanoseconds since 1970. -/
  lastProgress : Option Nat := none
deriving Inhabited

namespace Metrics

variable {α : Type} [Scalar α]

def new : Metrics α := { lastEstimate := Scalar.zero }

def repartitions (metrics : Metrics α) : Nat :=
  metrics.repartitionsOutlier + metrics.repartitionsGain + metrics.repartitionsStarvation

def setPhase (metrics : Metrics α) (phase : Phase) : Metrics α := { metrics with phase }

def touch (metrics : Metrics α) (now : Nat) : Metrics α :=
  { metrics with lastProgress := some now }

def recordEpoch (metrics : Metrics α) (now : Nat) : Metrics α :=
  { metrics with epochs := metrics.epochs + 1 }.touch now

def recordDecision (metrics : Metrics α) (estimate : α) : Metrics α :=
  { metrics with decisions := metrics.decisions + 1, lastEstimate := estimate }

def recordRepartition (metrics : Metrics α) : Reason → Metrics α
  | .outlier => { metrics with repartitionsOutlier := metrics.repartitionsOutlier + 1 }
  | .gain => { metrics with repartitionsGain := metrics.repartitionsGain + 1 }
  | .starvation => { metrics with repartitionsStarvation := metrics.repartitionsStarvation + 1 }

def recordInfeasible (metrics : Metrics α) : Metrics α :=
  { metrics with infeasibleSolves := metrics.infeasibleSolves + 1 }

def recordEmptyPlan (metrics : Metrics α) : Metrics α :=
  { metrics with emptyPlans := metrics.emptyPlans + 1 }

def recordMoves (metrics : Metrics α) (now dispatched skipped : Nat) : Metrics α :=
  { metrics with
    movesDispatched := metrics.movesDispatched + dispatched
    movesSkipped := metrics.movesSkipped + skipped }.touch now

def recordAck (metrics : Metrics α) (now : Nat) (accepted : Bool) : Metrics α :=
  if accepted then { metrics with movesAcked := metrics.movesAcked + 1 }.touch now
  else { metrics with acksIgnored := metrics.acksIgnored + 1 }

def recordCompleted (metrics : Metrics α) (now : Nat) : Metrics α :=
  { metrics with migrationsCompleted := metrics.migrationsCompleted + 1 }.touch now

def recordTimeout (metrics : Metrics α) (now : Nat) : Metrics α :=
  { metrics with migrationTimeouts := metrics.migrationTimeouts + 1 }.touch now

def recordBatch (metrics : Metrics α) (records : Nat) : Metrics α :=
  if records = 0 then { metrics with emptyBatches := metrics.emptyBatches + 1 }
  else { metrics with telemetryRecords := metrics.telemetryRecords + records }

/-- Milliseconds from the last progress to `now`, both counted from 1970; a `now` before 1970
counts as 1970. -/
def stalledFor (metrics : Metrics α) (nowMs : Int) : Option Nat :=
  metrics.lastProgress.map fun last => nowMs.toNat - last / 1000000

/-- What a counter shows: it is kept in a word and starts over after the last one. -/
def shown (count : Nat) : Nat := count % (wordMax + 1)

def figures (metrics : Metrics α) : List (String × Nat) :=
  [ ("epochs", shown metrics.epochs),
    ("decisions", shown metrics.decisions),
    ("repartitions_outlier", shown metrics.repartitionsOutlier),
    ("repartitions_gain", shown metrics.repartitionsGain),
    ("repartitions_starvation", shown metrics.repartitionsStarvation),
    ("infeasible_solves", shown metrics.infeasibleSolves),
    ("empty_plans", shown metrics.emptyPlans),
    ("moves_skipped", shown metrics.movesSkipped),
    ("moves_dispatched", shown metrics.movesDispatched),
    ("moves_acked", shown metrics.movesAcked),
    ("acks_ignored", shown metrics.acksIgnored),
    ("migrations_completed", shown metrics.migrationsCompleted),
    ("migration_timeouts", shown metrics.migrationTimeouts),
    ("telemetry_records", shown metrics.telemetryRecords),
    ("empty_batches", shown metrics.emptyBatches) ]

def lines (render : α → String) (metrics : Metrics α) : List String :=
  ["phase=" ++ metrics.phase.text]
    ++ metrics.figures.map (fun (name, count) => name ++ "=" ++ toString count)
    ++ [ "last_estimate=" ++ render metrics.lastEstimate,
         "last_progress_unix_ms=" ++ toString (metrics.lastProgress.getD 0 / 1000000) ]

end Metrics

end Rebalance
