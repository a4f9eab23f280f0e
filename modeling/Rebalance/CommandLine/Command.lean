import Rebalance.CommandLine.Flags
import Rebalance.CommandLine.Limits
import Rebalance.Decimal.Shortest
import Rebalance.Trace.Chunk

/-!
The commands: `run` feeds generated traffic to a simulated cluster, `trace` writes generated
traffic to a file, and `replay` feeds such a file to a simulated cluster.
-/

namespace Rebalance.CommandLine

inductive Command
  | run (setup : Setup Float) (duration tick txnsPerTick : Nat) (seed : Nat)
  | trace (layout : Layout) (out : String) (txns : Nat) (seed : Nat)
  | replay (setup : Setup Float) (trace : String) (interval settle : Nat)

def setting (kind : Kind) (name envName fallback : String) : Flag :=
  { kind, name, envName? := some envName, fallback := some fallback }

def option (kind : Kind) (name fallback : String) : Flag :=
  { kind, name, fallback := some fallback }

def layoutFlags : List Flag :=
  [ setting .natural "hosts" "REPART_HOSTS" "2",
    setting .natural "partitions-per-host" "REPART_PARTITIONS_PER_HOST" "2",
    setting .natural "spare-sites" "REPART_SPARE_SITES" "2" ]

def controllerFlags : List Flag :=
  [ setting .duration "epoch" "REPART_EPOCH" "1s",
    setting .duration "startup-poll" "REPART_STARTUP_POLL" "100ms",
    setting .natural "max-partitions-per-host" "REPART_MAX_PARTITIONS_PER_HOST" "8",
    setting .natural "max-partitions-moved" "REPART_MAX_PARTITIONS_MOVED" "2",
    setting .natural "history-len" "REPART_HISTORY_LEN" "30",
    setting .number "outlier-stddevs" "REPART_OUTLIER_STDDEVS" "2",
    setting .percentage "min-gain-pct" "REPART_MIN_GAIN_PCT" "20",
    setting .natural "starvation-epochs" "REPART_STARVATION_EPOCHS" "60",
    setting .natural "startup-ignore-epochs" "REPART_STARTUP_IGNORE_EPOCHS" "0",
    setting .natural "post-repartition-ignore-epochs" "REPART_POST_REPARTITION_IGNORE_EPOCHS"
      "40",
    setting .natural "max-samples-per-group" "REPART_MAX_SAMPLES_PER_GROUP" "1000",
    setting .natural "max-search-nodes" "REPART_MAX_SEARCH_NODES" "200000",
    setting .duration "migration-timeout" "REPART_MIGRATION_TIMEOUT" "5m",
    setting .natural "channel-capacity" "REPART_CHANNEL_CAPACITY" "1024" ]

def copyDelayFlag : Flag := setting .duration "copy-delay" "REPART_COPY_DELAY" "500ms"

def runFlags : List Flag :=
  layoutFlags ++ controllerFlags ++
    [ option .duration "duration" "30s", option .duration "tick" "50ms",
      option .natural "txns-per-tick" "50", copyDelayFlag, option .natural "seed" "0" ]

def traceFlags : List Flag :=
  layoutFlags ++
    [{ kind := .path, name := "out" }, option .natural "txns" "10000", option .natural "seed" "0"]

def replayFlags : List Flag :=
  layoutFlags ++ controllerFlags ++
    [ { kind := .path, name := "trace" }, option .duration "batch-interval" "10ms",
      option .duration "settle" "5s", copyDelayFlag ]

section
variable (values : Bindings)

def natural (name : String) : Option Nat :=
  (values.find name).bind fun text => readNatural wordMax text.toList

def duration (name : String) : Option Nat :=
  (values.find name).bind fun text => (readDuration text.toList).toOption

def readLayout : Option Layout := do
  pure
    { hosts := ← natural values "hosts"
      partitionsPerHost := ← natural values "partitions-per-host"
      spareSites := ← natural values "spare-sites" }

def readConfig : Option (Config Float) := do
  let deviations ← values.find "outlier-stddevs"
  let minGain ← values.find "min-gain-pct"
  pure
    { epochLength := ← duration values "epoch"
      startupPoll := ← duration values "startup-poll"
      maxPartitionsPerHost := ← natural values "max-partitions-per-host"
      maxPartitionsMoved := ← natural values "max-partitions-moved"
      historyLength := ← natural values "history-len"
      outlierDeviations := ← readFloat deviations.toList
      minGainPercent := ← readSigned (Nat.pow 2 32 - 1) minGain.toList
      starvationEpochs := ← natural values "starvation-epochs"
      startupIgnoreEpochs := ← natural values "startup-ignore-epochs"
      settleEpochs := ← natural values "post-repartition-ignore-epochs"
      maxSamplesPerGroup := ← natural values "max-samples-per-group"
      maxSearchNodes := ← natural values "max-search-nodes"
      migrationTimeout := ← duration values "migration-timeout"
      channelCapacity := ← natural values "channel-capacity" }

def readSetup : Option (Setup Float) := do
  pure
    { layout := ← readLayout values
      copyDelay := ← duration values "copy-delay"
      config := ← readConfig values }

def readRun : Option Command := do
  pure (.run (← readSetup values) (← duration values "duration") (← duration values "tick")
    (← natural values "txns-per-tick") (← natural values "seed"))

def readTrace : Option Command := do
  pure (.trace (← readLayout values) (← values.find "out") (← natural values "txns")
    (← natural values "seed"))

def readReplay : Option Command := do
  pure (.replay (← readSetup values) (← values.find "trace") (← duration values "batch-interval")
    (← duration values "settle"))

end

def parse (environment : Bindings) (args : List String) : Except Refusal Command :=
  let build (flags : List Flag) (read : Bindings → Option Command) (rest : List String) :=
    (resolve flags environment rest).bind fun values => understood (read values)
  match args with
  | "run" :: rest => build runFlags readRun rest
  | "trace" :: rest => build traceFlags readTrace rest
  | "replay" :: rest => build replayFlags readReplay rest
  | _ => .error .usage

inductive Content
  | missing
  /-- It can be opened but not read, as a directory. -/
  | unreadable
  | bytes (content : List UInt8)

/-- What is left to do for whoever carries a command out. -/
inductive Action
  | refuse (refusal : Refusal)
  | print (lines : List String)
  /-- The error, from the outside in. -/
  | fail (messages : List String)
  /-- Creates a file and hands the chunks to it in turn. -/
  | save (path : String) (chunks : List Trace.Chunk)
  | load (path : String) (next : Content → Action)

/-- How an error is reported: what failed, and then the causes. -/
def report : List String → String
  | [] => ""
  | [error] => "Error: " ++ error ++ "\n"
  | error :: causes =>
    "Error: " ++ error ++ "\n\nCaused by:\n"
      ++ String.join (causes.map fun cause => "    " ++ cause ++ "\n")

def firstLine (text : String) : String :=
  let line := text.toList.takeWhile (· != '\n')
  String.ofList (if line.getLast? = some '\r' then line.dropLast else line)

def createFailure (path : String) : List String := ["create " ++ path]

def chunkFailure (path : String) : Trace.Moment → List String
  | .record id => ["encode txn " ++ toString id]
  | .lineEnd => ["write " ++ path]
  | .finish => ["flush " ++ path]

def sourceOf (seed fresh : Nat) : Xoshiro := .ofSeed (if seed = 0 then fresh else seed).toUInt64

def flagFailure (error : ConfigError Float) : List String :=
  ["invalid controller flags", error.message Decimal.float]

def ofSummary : Except (RunError Float) (Summary Float) → Action
  | .ok summary => .print (summary.lines Decimal.float)
  | .error error => .fail (error.messages Decimal.float)

structure Start where
  /-- A seed that was picked at random. -/
  fresh : Nat
  /-- Nanoseconds since 1970. -/
  now : Nat
  /-- Nanoseconds for which the clock has been running. -/
  uptime : Nat
deriving Inhabited

def sendFailure : List String := ["controller stopped accepting telemetry"]

def waitFailure : List String := ["controller task panicked"]

/-- A controller whose first epoch the clock does not reach the end of is gone from the start. -/
def executeRun (start : Start) (setup : Setup Float) (duration tick txnsPerTick : Nat)
    (source : Xoshiro) : Action :=
  if txnsPerTick = 0 then .fail ["--txns-per-tick must be > 0"]
  else if tick = 0 then .fail ["--tick must be > 0"]
  else
    match setup.layout.validate, layoutFits setup.layout, setup.config.validate with
    | .error error, _, _ => .fail [error.message]
    | .ok _, false, _ => .refuse .overflow
    | .ok _, true, .error error => .fail (flagFailure error)
    | .ok _, true, .ok _ =>
      let fits := configFits setup.config && clockReaches start.uptime duration
      if !fits || (0 < duration && !recordsFit txnsPerTick) then .refuse .overflow
      else if !clockReaches start.uptime setup.config.epochLength then
        .fail (if duration = 0 then waitFailure else sendFailure)
      else
        let profile := Profile.ofLayout setup.layout
        let traffic := { profile, source, duration, tick, txnsPerTick }
        ofSummary (Simulation.generate setup traffic start.now)

def executeTrace (layout : Layout) (out : String) (txns : Nat) (source : Xoshiro) : Action :=
  match layoutFits layout, layout.validate with
  | false, _ => .refuse .overflow
  | true, .error error => .fail [error.message]
  | true, .ok _ =>
    if !recordsFit txns then .refuse .overflow
    else
      match generateTrace layout (Profile.ofLayout layout) source txns with
      | .ok records => .save out (Trace.chunks records)
      | .error error => .fail [error.message Decimal.float]

def traceFailure (path : String) : Trace.ReadError → List String
  | .encoding => ["read " ++ path]
  | .malformed line => ["parse " ++ path ++ " line " ++ toString line]

def replayRecorded (start : Start) (setup : Setup Float) (records : List Record)
    (interval settle : Nat) : Action :=
  match setup.config.validate, setup.layout.validate with
  | .error error, _ => .fail (flagFailure error)
  | .ok _, .error error => .fail [error.message]
  | .ok _, .ok _ =>
    if !layoutFits setup.layout || !configFits setup.config then .refuse .overflow
    else if !clockReaches start.uptime setup.config.epochLength then
      .fail (if interval = 0 || records.length ≤ maxBatchRecords then waitFailure else sendFailure)
    else ofSummary (Simulation.replay setup records interval settle start.now)

def executeReplay (start : Start) (setup : Setup Float) (path : String) (interval settle : Nat)
    (content : Content) : Action :=
  match content with
  | .missing => .fail ["open " ++ path]
  | .unreadable => .fail ["read " ++ path]
  | .bytes content =>
    match Trace.read content with
    | .error error => .fail (traceFailure path error)
    | .ok records => replayRecorded start setup records interval settle

def execute (start : Start) : Command → Action
  | .run setup duration tick txnsPerTick seed =>
    executeRun start setup duration tick txnsPerTick (sourceOf seed start.fresh)
  | .trace layout out txns seed => executeTrace layout out txns (sourceOf seed start.fresh)
  | .replay setup path interval settle =>
    .load path (executeReplay start setup path interval settle)

def respond (start : Start) (environment : Bindings) (args : List String) : Action :=
  match parse environment args with
  | .ok command => execute start command
  | .error refusal => .refuse refusal

end Rebalance.CommandLine
