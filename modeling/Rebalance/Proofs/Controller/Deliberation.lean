import Rebalance.Proofs.Controller.Log

/-!
What a decision goes by: the records that it replays, and the one evaluation of the gate that
they lead to. Everything a decision does follows from these and from the cluster's answers.
-/

namespace Rebalance

variable {α : Type} [Scalar α]

structure Evaluation (α : Type) where
  evidence : Evidence α
  before : Gate α
  verdict : Verdict α
  after : Gate α
deriving Inhabited

/-- What a decision goes by. -/
structure Deliberation (α : Type) where
  /-- What the ledger holds. -/
  records : List Record
  topology : Topology
  /-- The sample once the telemetry is replayed into it. -/
  replayed : Sample
  /-- None where the sample holds nothing to learn from. -/
  evaluation : Option (Evaluation α)
deriving Inhabited

def Evidence.evaluate (evidence : Evidence α) (limits : SearchLimits) (gate : Gate α) :
    Evaluation α :=
  let judged : Verdict α × Gate α :=
    Id.run (gate.evaluate evidence.estimate (pure (evidence.solve limits)))
  { evidence, before := gate, verdict := judged.1, after := judged.2 }

def Evaluation.decision (evaluation : Evaluation α) (limits : SearchLimits) : Decision α :=
  match evaluation.verdict with
  | .infeasible => .infeasible
  | .hold _ => .stay
  | .repartition reason (some candidate) => .move reason candidate
  | .repartition reason none =>
    match evaluation.evidence.solve limits with
    | some candidate => .move reason candidate
    | none => .infeasible

theorem Evidence.decide_eq (evidence : Evidence α) (limits : SearchLimits) (gate : Gate α) :
    evidence.decide limits gate =
      ((evidence.evaluate limits gate).decision limits, (evidence.evaluate limits gate).after) := by
  unfold Evidence.decide Evaluation.decision Evidence.evaluate
  simp only
  generalize Id.run (gate.evaluate evidence.estimate (pure (evidence.solve limits))) = judged
  obtain ⟨verdict, after⟩ := judged
  cases verdict with
  | infeasible => rfl
  | hold candidate => rfl
  | repartition reason candidate =>
    cases candidate with
    | some candidate => rfl
    | none => cases evidence.solve limits <;> rfl

namespace Controller

variable {σ : Type} [Environment σ]

def deliberate (controller : Controller α) (topology : Topology) : Deliberation α where
  records := controller.ledger.records
  topology := topology
  replayed := (controller.replay topology).sample
  evaluation := (controller.gather topology).1.map
    (·.evaluate controller.config.searchLimits controller.gate)

theorem deliberate_deciding (controller : Controller α) (now : Nat) (topology : Topology) :
    (controller.deciding now).deliberate topology = controller.deliberate topology := by
  unfold deliberate
  rw [evidence_gather, evidence_gather]
  rfl

def conclude (controller : Controller α) (now : Nat) (deliberation : Deliberation α)
    (environment : σ) : Controller α × σ :=
  let gathered := (controller.gather deliberation.topology).2
  match deliberation.evaluation with
  | none => (gathered, environment)
  | some evaluation =>
    let counted := gathered.modifyMetrics (·.recordDecision evaluation.evidence.estimate)
    let decided := { counted with gate := evaluation.after }
    match evaluation.decision controller.config.searchLimits with
    | .stay => (decided, environment)
    | .infeasible => (decided.modifyMetrics (·.recordInfeasible), environment)
    | .move reason candidate =>
      decided.migrate now evaluation.evidence reason candidate environment

/-- A decision is a deliberation on the snapshot, and what is concluded from it. -/
theorem decide_eq (controller : Controller α) (now : Nat) (environment : σ) :
    controller.decide now environment =
      match Environment.snapshot environment with
      | (none, environment) => (controller, environment)
      | (some topology, environment) =>
        controller.conclude now (controller.deliberate topology) environment := by
  unfold decide
  generalize Environment.snapshot environment = asked
  obtain ⟨shown, left⟩ := asked
  cases shown with
  | none => rfl
  | some topology =>
    unfold conclude deliberate
    obtain ⟨sample, capped, touched⟩ := controller.exists_gather topology
    cases gathered : controller.gather topology with
    | mk evidence? gathering =>
      rw [gathered] at touched
      subst touched
      cases evidence? with
      | none => simp only [gathered, Option.map_none]
      | some evidence =>
        simp only [gathered, Option.map_some, Evidence.decide_eq]
        rfl

def deliberation? (controller : Controller α) (occasion : Occasion σ) :
    Option (Deliberation α) :=
  match occasion.event, controller.state with
  | .epoch _, .collecting 0 =>
    (Environment.snapshot occasion.environment).1.map controller.deliberate
  | _, _ => none

theorem exists_deliberate {controller : Controller α} {occasion : Occasion σ}
    {deliberation : Deliberation α}
    (deliberated : controller.deliberation? occasion = some deliberation) :
    ∃ topology, deliberation = controller.deliberate topology := by
  unfold deliberation? at deliberated
  split at deliberated
  · obtain ⟨topology, _, rfl⟩ := Option.map_eq_some_iff.1 deliberated
    exact ⟨topology, rfl⟩
  · cases deliberated

end Controller

/-- What came of one event, and what was gone by. -/
structure Account (α : Type) extends Entry where
  deliberation : Option (Deliberation α)
deriving Inhabited

namespace Controller

variable {σ : Type} [Environment σ]

def account (controller : Controller α) (occasion : Occasion σ) : Controller α × Account α :=
  let (next, entry) := controller.record occasion
  (next, { toEntry := entry, deliberation := controller.deliberation? occasion })

/-- The log of a controller, with what its decisions went by. -/
def accounts : Controller α → List (Occasion σ) → List (Account α)
  | _, [] => []
  | controller, occasion :: rest =>
    let (next, account) := controller.account occasion
    account :: next.accounts rest

end Controller

end Rebalance
