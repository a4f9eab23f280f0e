import Rebalance.Gate.Basic

/-!
The settings of the controller, and the checks a setting has to pass before it is used.
Durations are in nanoseconds.
-/

namespace Rebalance

structure Config (α : Type) where
  epochLength : Nat
  /-- Pause between two questions whether the cluster is ready. -/
  startupPoll : Nat
  maxPartitionsPerHost : Nat
  maxPartitionsMoved : Nat
  historyLength : Nat
  outlierDeviations : α
  minGainPercent : Nat
  starvationEpochs : Nat
  /-- Epochs that pass before the first decision. -/
  startupIgnoreEpochs : Nat
  /-- Epochs that pass after a repartition before the next decision. -/
  settleEpochs : Nat
  maxSamplesPerGroup : Nat
  /-- Node budget of one placement search; zero for none. -/
  maxSearchNodes : Nat
  /-- How long a migration may go without progress; zero for ever. -/
  migrationTimeout : Nat
  channelCapacity : Nat
deriving Inhabited

inductive ConfigError (α : Type)
  | epochLength
  | startupPoll
  | maxPartitionsPerHost
  | historyLength
  | outlierDeviations (value : α)
  | minGain (percent : Nat)
  | maxSamplesPerGroup
  | channelCapacity

def ConfigError.message {α : Type} (render : α → String) : ConfigError α → String
  | epochLength => "epoch length must be non-zero"
  | startupPoll => "startup poll interval must be non-zero"
  | maxPartitionsPerHost => "max partitions per host must be at least 1"
  | historyLength => "history length must be at least 1"
  | outlierDeviations value =>
    "outlier threshold must be a non-negative number of standard deviations (got "
      ++ render value ++ ")"
  | minGain percent => "minimum gain must be a percentage (got " ++ toString percent ++ ")"
  | maxSamplesPerGroup => "max samples per group must be at least 1"
  | channelCapacity => "channel capacity must be at least 1"

namespace Config

variable {α : Type} [Scalar α]

def millisecond : Nat := 1000000

def second : Nat := 1000 * millisecond

def standard : Config α where
  epochLength := second
  startupPoll := 100 * millisecond
  maxPartitionsPerHost := 8
  maxPartitionsMoved := 2
  historyLength := 30
  outlierDeviations := Scalar.ofCount 2
  minGainPercent := 20
  starvationEpochs := 60
  startupIgnoreEpochs := 0
  settleEpochs := 40
  maxSamplesPerGroup := Sample.defaultCap
  maxSearchNodes := 200000
  migrationTimeout := 300 * second
  channelCapacity := 1024

def validate (config : Config α) : Except (ConfigError α) Unit := do
  if config.epochLength = 0 then throw .epochLength
  if config.startupPoll = 0 then throw .startupPoll
  if config.maxPartitionsPerHost = 0 then throw .maxPartitionsPerHost
  if config.historyLength = 0 then throw .historyLength
  let deviations := config.outlierDeviations
  if !Scalar.isFinite deviations || Scalar.lt deviations Scalar.zero then
    throw (.outlierDeviations deviations)
  if 100 < config.minGainPercent then throw (.minGain config.minGainPercent)
  if config.maxSamplesPerGroup = 0 then throw .maxSamplesPerGroup
  if config.channelCapacity = 0 then throw .channelCapacity

def gate (config : Config α) : GateConfig α where
  historyLength := config.historyLength
  outlierDeviations := config.outlierDeviations
  minGainPercent := config.minGainPercent
  starvationEpochs := config.starvationEpochs

def searchLimits (config : Config α) : SearchLimits where
  perHost := config.maxPartitionsPerHost
  moved := config.maxPartitionsMoved
  nodes := config.maxSearchNodes

/-- How many records of one epoch are kept for the decision at its end. -/
def maxRetainedRecords (config : Config α) : Nat := min (64 * config.maxSamplesPerGroup) wordMax

end Config

end Rebalance
