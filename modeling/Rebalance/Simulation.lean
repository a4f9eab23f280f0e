import Rebalance.Cluster.System
import Rebalance.Workload.Generator

/-!
Whole runs: a workload, generated or recorded, is fed to the controller of a simulated
cluster in batches, and a summary tells what came of it.
-/

namespace Rebalance

def maxBatchRecords : Nat := 100

structure Summary (α : Type) where
  initial : Placement
  final : Placement
  recordsSent : Nat
  movesStarted : Nat
  movesFinished : Nat
  sitesFailed : Nat
  metrics : Metrics α
deriving Inhabited

def Summary.lines {α : Type} (render : α → String) (summary : Summary α) : List String :=
  [ "initial_placement=" ++ summary.initial.text,
    "final_placement=" ++ summary.final.text,
    "records_sent=" ++ toString summary.recordsSent,
    "sim_moves_started=" ++ toString summary.movesStarted,
    "sim_moves_finished=" ++ toString summary.movesFinished,
    "sim_sites_failed=" ++ toString summary.sitesFailed ] ++ summary.metrics.lines render

inductive RunError (α : Type)
  | zeroTick
  | profile (error : ProfileError)
  | layout (error : LayoutError)
  | config (error : ConfigError α)
  /-- Not told as an error: the run breaks off. -/
  | draw (fault : DrawFault)

def RunError.messages (render : Float → String) : RunError Float → List String
  | zeroTick => ["tick must be non-zero"]
  | profile error => [error.message render]
  | layout error => [error.message]
  | config error => ["build repartition controller", error.message render]
  | draw fault => [fault.message]

structure Setup (α : Type) where
  layout : Layout
  copyDelay : Nat
  config : Config α

/-- Generated traffic: every `tick` up to `duration`, so many attempts at a transaction. -/
structure Traffic (σ : Type) where
  profile : Profile
  source : σ
  duration : Nat
  tick : Nat
  txnsPerTick : Nat

namespace Simulation

variable {α : Type} [Scalar α]

def batchesOf (size : Nat) : Nat → List Record → List (List Record)
  | 0, _ => []
  | _ + 1, [] => []
  | fuel + 1, record :: rest =>
    (record :: rest).take size :: batchesOf size fuel ((record :: rest).drop size)

def batches (records : List Record) : List (List Record) :=
  batchesOf maxBatchRecords records.length records

/-- A system that takes telemetry, with the number of records sent to it. -/
structure Feed (α : Type) where
  system : System α
  initial : Placement
  sent : Nat := 0

namespace Feed

def start (setup : Setup α) (now : Nat) : Except (RunError α) (Feed α) := do
  setup.layout.validate.mapError .layout
  setup.config.validate.mapError .config
  let initial := setup.layout.topology.placement
  pure { system := System.start setup.config setup.layout setup.copyDelay now, initial }

def sendBatch (feed : Feed α) (batch : List Record) : Feed α :=
  { feed with
    system := feed.system.send (.telemetry batch), sent := feed.sent + batch.length }

/-- Sends records in batches; no records at all go out as one empty batch. -/
def send (feed : Feed α) (records : List Record) : Feed α :=
  if records.isEmpty then feed.sendBatch [] else (batches records).foldl sendBatch feed

def advance (feed : Feed α) (target : Nat) : Feed α :=
  { feed with system := feed.system.advance target }

def finish (feed : Feed α) : Summary α :=
  let system := feed.system.close
  { initial := feed.initial
    final := system.environment.placement
    recordsSent := feed.sent
    movesStarted := system.environment.movesStarted
    movesFinished := system.environment.movesFinished
    sitesFailed := system.environment.sitesFailed
    metrics := system.controller.metrics }

end Feed

section
variable {σ : Type} [RandomSource σ]

def tickOnce (txns : Nat) (state : Feed α × Generator σ) :
    Except DrawFault (Feed α × Generator σ) := do
  let topology := state.1.system.environment.topology
  let (records, generator) ← state.2.tryNextMany topology txns
  pure (state.1.send records, generator)

/-- The ticks numbered from `index` on; time then stands at the tick after the last. -/
def ticks (start tick txns : Nat) :
    Nat → Nat → Feed α × Generator σ → Except DrawFault (Feed α × Generator σ)
  | 0, index, state => pure (state.1.advance (start + index * tick), state.2)
  | count + 1, index, state => do
    let arrived := (state.1.advance (start + index * tick), state.2)
    ticks start tick txns count (index + 1) (← tickOnce txns arrived)

def generate (setup : Setup α) (traffic : Traffic σ) (now : Nat) :
    Except (RunError α) (Summary α) := do
  if traffic.tick = 0 then throw .zeroTick
  traffic.profile.validate.mapError .profile
  let feed ← Feed.start setup now
  let count := (traffic.duration + traffic.tick - 1) / traffic.tick
  let generator := Generator.new traffic.profile traffic.source
  let (feed, _) ← (ticks now traffic.tick traffic.txnsPerTick count 0 (feed, generator)).mapError
    .draw
  pure feed.finish

end

def replayBatch (interval : Nat) (feed : Feed α) (batch : List Record) : Feed α :=
  let sent := feed.send batch
  sent.advance (sent.system.now + interval)

/-- Feeds recorded traffic to a fresh cluster, from time `now` on: batches at intervals, then
some time to settle. -/
def replay (setup : Setup α) (records : List Record) (interval settle now : Nat) :
    Except (RunError α) (Summary α) := do
  let feed ← Feed.start setup now
  let fed := (batches records).foldl (replayBatch interval) feed
  pure (fed.advance (fed.system.now + settle)).finish

end Simulation

inductive TraceError
  | layout (error : LayoutError)
  | profile (error : ProfileError)
  /-- Not told as an error: the run breaks off. -/
  | draw (fault : DrawFault)

def TraceError.message (render : Float → String) : TraceError → String
  | layout error => error.message
  | profile error => error.message render
  | draw fault => fault.message

def generateTrace {σ : Type} [RandomSource σ] (layout : Layout) (profile : Profile) (source : σ)
    (count : Nat) : Except TraceError (List Record) := do
  layout.validate.mapError .layout
  profile.validate.mapError .profile
  let (records, _) ← ((Generator.new profile source).tryNextMany layout.topology count).mapError .draw
  pure records

end Rebalance
