import Rebalance.Gate.History
import Rebalance.Placement.Search

/-!
The gate that decides, epoch by epoch, whether the present estimate warrants a repartition.
An estimate far above the window of past ones forces it without asking the optimizer. Else
the optimizer's answer has to promise the minimum gain, or any gain at all once enough
epochs have passed without a repartition.
-/

namespace Rebalance

structure GateConfig (α : Type) where
  historyLength : Nat
  /-- How many standard deviations above the mean make an outlier. -/
  outlierDeviations : α
  minGainPercent : Nat
  starvationEpochs : Nat
deriving Inhabited

inductive Reason
  | outlier
  | gain
  | starvation
deriving DecidableEq, Inhabited

def Reason.text : Reason → String
  | .outlier => "outlier"
  | .gain => "gain"
  | .starvation => "starvation"

inductive Verdict (α : Type)
  /-- Without a candidate where the optimizer was not asked. -/
  | repartition (reason : Reason) (candidate : Option (Solution α))
  | hold (candidate : Solution α)
  /-- The optimizer found no placement within its limits. -/
  | infeasible
deriving DecidableEq, Inhabited

structure Gate (α : Type) where
  config : GateConfig α
  history : History α
  /-- Holds since the last repartition that the gate granted. -/
  holds : Nat := 0
deriving Inhabited

namespace Gate

variable {α : Type} [Scalar α]

def new (config : GateConfig α) : Gate α := { config, history := .new config.historyLength }

/-- The largest candidate estimate that still counts as the minimum gain. -/
def gainThreshold (gate : Gate α) (current : α) : α :=
  let gain := Scalar.ofCount (min gate.config.minGainPercent 100) / Scalar.ofCount 100
  current * (Scalar.one - gain)

/-- The estimate above which an epoch is an outlier; none before the window is full. -/
def outlierLimit (gate : Gate α) : Option α :=
  if gate.history.isFull then
    match gate.history.mean, gate.history.deviation with
    | some mean, some deviation => some (mean + gate.config.outlierDeviations * deviation)
    | _, _ => none
  else none

def isOutlier (gate : Gate α) (current : α) : Bool :=
  gate.outlierLimit.any (Scalar.lt · current)

def grounds (gate : Gate α) (current estimate : α) : Option Reason :=
  if Scalar.le estimate (gate.gainThreshold current) then some .gain
  else if Scalar.lt estimate current && gate.config.starvationEpochs ≤ gate.holds then
    some .starvation
  else none

def judge (gate : Gate α) (current : α) : Option (Solution α) → Verdict α × Gate α
  | none => (.infeasible, gate)
  | some candidate =>
    match gate.grounds current candidate.estimate with
    | some reason => (.repartition reason (some candidate), { gate with holds := 0 })
    | none => (.hold candidate, { gate with holds := gate.holds + 1 })

/-- The verdict on this epoch's estimate. `solve` runs the optimizer, and does so only when
the estimate is no outlier; an outlier is kept out of the window. -/
def evaluate {m : Type → Type} [Monad m] (gate : Gate α) (current : α)
    (solve : m (Option (Solution α))) : m (Verdict α × Gate α) :=
  if gate.isOutlier current then
    pure (.repartition .outlier none, { gate with holds := 0 })
  else do
    let answer ← solve
    pure ({ gate with history := gate.history.push current }.judge current answer)

end Gate

end Rebalance
