import Rebalance.Controller.Staged
import Rebalance.Proofs.Controller.Deliberation
import Rebalance.Proofs.Controller.Sequencing
import Rebalance.Proofs.Search.Optimality
import Rebalance.Proofs.Search.Yardstick

/-!
What a migration is worth. The copies that a decision starts are those that its candidate needs,
so a migration begins only where the candidate places some partition elsewhere. The search starts
out from the current placement and gives it up for a lower estimate only, whatever rule the gate
granted the repartition by.
-/

namespace Rebalance

variable {α : Type} [Scalar α]

namespace Deliberation

def sample (deliberation : Deliberation α) (cap : Nat) : Sample :=
  (replayRecords deliberation.records (.new cap) deliberation.topology).2.reconcile

def movesTo (deliberation : Deliberation α) (candidate : Solution α) : List Move :=
  (Plan.make deliberation.topology.placement candidate.placement deliberation.topology).moves

def moves (deliberation : Deliberation α) (limits : SearchLimits) : List Move :=
  match deliberation.evaluation with
  | none => []
  | some evaluation =>
    match evaluation.decision limits with
    | .move _ candidate => deliberation.movesTo candidate
    | _ => []

theorem exists_candidate {deliberation : Deliberation α} {limits : SearchLimits}
    (starts : deliberation.moves limits ≠ []) :
    ∃ evaluation reason candidate, deliberation.evaluation = some evaluation ∧
      evaluation.decision limits = .move reason candidate ∧
        deliberation.moves limits = deliberation.movesTo candidate := by
  unfold moves at starts ⊢
  cases evaluated : deliberation.evaluation with
  | none =>
    rw [evaluated] at starts
    exact absurd rfl starts
  | some evaluation =>
    rw [evaluated] at starts
    simp only at starts
    cases decided : evaluation.decision limits with
    | stay | infeasible =>
      rw [decided] at starts
      exact absurd rfl starts
    | move reason candidate =>
      refine ⟨evaluation, reason, candidate, rfl, decided, ?_⟩
      simp only [decided]

end Deliberation

/-- A decision to move to a candidate, whose copies are then asked for. Both estimates are of the
one sample. -/
structure Account.Launches (account : Account α) (config : Config α)
    (deliberation : Deliberation α) (evaluation : Evaluation α) (reason : Reason)
    (candidate : Solution α) : Prop where
  deliberated : account.deliberation = some deliberation
  evaluated : deliberation.evaluation = some evaluation
  decided : evaluation.decision config.searchLimits = .move reason candidate
  found : findPlacement config.searchLimits (deliberation.sample config.maxSamplesPerGroup)
    deliberation.topology.placement deliberation.topology.hosts = some candidate
  present : evaluation.evidence.estimate =
    estimatedTime (deliberation.sample config.maxSamplesPerGroup) deliberation.topology.placement
  promised : candidate.estimate =
    estimatedTime (deliberation.sample config.maxSamplesPerGroup) candidate.placement
  started : account.started = deliberation.movesTo candidate

theorem Evidence.solve_of_evaluate {evidence : Evidence α} {limits : SearchLimits} {gate : Gate α}
    {reason : Reason} {candidate : Solution α}
    (decided : (evidence.evaluate limits gate).decision limits = .move reason candidate) :
    evidence.solve limits = some candidate := by
  have moves : (evidence.decide limits gate).1 = .move reason candidate := by
    rw [Evidence.decide_eq]
    exact decided
  exact Evidence.solve_of_decide moves

namespace Controller

variable {σ : Type} [Environment σ]

theorem evidence_deliberate {controller : Controller α} {topology : Topology}
    {evaluation : Evaluation α}
    (evaluated : (controller.deliberate topology).evaluation = some evaluation) :
    ∃ evidence : Evidence α, evaluation = evidence.evaluate controller.config.searchLimits
        controller.gate ∧
      evidence.topology = topology ∧ evidence.placement = topology.placement ∧
        evidence.sample =
            (controller.deliberate topology).sample controller.config.maxSamplesPerGroup ∧
          evidence.estimate = estimatedTime evidence.sample topology.placement := by
  obtain ⟨evidence, gathered, rfl⟩ := Option.map_eq_some_iff.1 evaluated
  obtain rfl := of_gather gathered
  exact ⟨_, rfl, rfl, rfl, congrArg Sample.reconcile (controller.sample_replay topology), rfl⟩

/-- What is concluded asks for the copies that the deliberation comes to, and for no others. -/
theorem started_conclude (controller : Controller α) (now : Nat) (topology : Topology)
    {watched : Watched σ} (bare : watched.requests = []) :
    (controller.conclude now (controller.deliberate topology) watched).2.requests.filterMap
        Request.started? =
      (controller.deliberate topology).moves controller.config.searchLimits := by
  unfold conclude Deliberation.moves
  cases evaluated : (controller.deliberate topology).evaluation with
  | none => simp [bare]
  | some evaluation =>
    simp only
    cases evaluation.decision controller.config.searchLimits with
    | stay => simp [bare]
    | infeasible => simp [bare]
    | move reason candidate =>
      obtain ⟨evidence, rfl, onTopology, onPlacement, _⟩ := evidence_deliberate evaluated
      obtain ⟨asked, dispatched⟩ := Watched.exists_dispatched {}
        (Plan.make evidence.placement candidate.placement evidence.topology).moves watched
      have launched := (migrate_eq
        { (controller.gather topology).2.modifyMetrics (·.recordDecision evidence.estimate) with
          gate := (evidence.evaluate controller.config.searchLimits controller.gate).after }
        now evidence reason candidate watched).2.1
      have requests := dispatched.requests
      rw [← launched, bare, List.nil_append] at requests
      have planned : (Plan.make evidence.placement candidate.placement evidence.topology).moves =
          (Plan.make topology.placement candidate.placement topology).moves := by
        rw [onTopology, onPlacement]
      exact (congrArg (List.filterMap Request.started?) requests).trans
        (dispatched.started.trans planned)

/-- An epoch that is not ignored ends with a decision, and no count bears on what it asks for. -/
theorem started_closeEpoch (controller : Controller α) (now : Nat) (watched : Watched σ)
    (bare : watched.requests = []) (before : controller.state = .collecting 0) :
    (controller.closeEpoch now watched).2.requests.filterMap Request.started? =
      ((Environment.snapshot watched.inner).1.map fun topology =>
        (controller.deliberate topology).moves controller.config.searchLimits).getD [] := by
  have shown : Environment.snapshot watched =
    ((Environment.snapshot watched.inner).1,
      { watched with inner := (Environment.snapshot watched.inner).2 }) := rfl
  have closing := controller.closing_closeEpoch now watched
  generalize controller.closeEpoch now watched = after at closing ⊢
  cases closing with
  | waiting other | ignored other | running other => cases before.symm.trans other
  | decided _ same =>
    subst same
    rw [decide_eq, shown]
    cases (Environment.snapshot watched.inner).1 with
    | none => exact congrArg (List.filterMap Request.started?) bare
    | some topology =>
      rw [Option.map_some, Option.getD_some, ← deliberate_deciding controller now]
      exact (controller.deciding now).started_conclude now topology bare

/-- Whatever a controller is told, it starts the copies that its deliberation comes to. -/
theorem started_record (controller : Controller α) (occasion : Occasion σ) :
    (controller.record occasion).2.started =
      ((controller.deliberation? occasion).map
        (·.moves controller.config.searchLimits)).getD [] := by
  have lawful := controller.lawful_record occasion
  obtain ⟨event, environment⟩ := occasion
  unfold deliberation?
  split
  · next now before closing =>
    change event = _ at before
    subst before
    rw [Option.map_map]
    exact controller.started_closeEpoch now { inner := environment } rfl closing
  · next quiet =>
    by_contra starts
    obtain ⟨⟨now, closing⟩, before⟩ := lawful.of_started starts
    exact quiet now closing before

/-- A deliberation that comes to copies is a decision to move to an answer of the search. -/
theorem launches_of_starts (controller : Controller α) (occasion : Occasion σ)
    (starts : (controller.account occasion).2.started ≠ []) :
    ∃ deliberation evaluation reason candidate,
      (controller.account occasion).2.Launches controller.config deliberation evaluation reason
        candidate := by
  have started : (controller.account occasion).2.started = _ := controller.started_record occasion
  cases deliberated : controller.deliberation? occasion with
  | none =>
    rw [started, deliberated] at starts
    exact absurd rfl starts
  | some deliberation =>
    obtain ⟨topology, rfl⟩ := exists_deliberate deliberated
    rw [deliberated, Option.map_some, Option.getD_some] at started
    rw [started] at starts
    obtain ⟨evaluation, reason, candidate, evaluated, decided, moves⟩ :=
      Deliberation.exists_candidate starts
    obtain ⟨evidence, rfl, onTopology, onPlacement, sampled, estimated⟩ :=
      evidence_deliberate evaluated
    have found := Evidence.solve_of_evaluate decided
    rw [Evidence.solve, onTopology, onPlacement, sampled] at found
    rw [sampled] at estimated
    exact ⟨_, _, reason, candidate, deliberated, evaluated, decided, found, estimated,
      SearchProblem.estimate_of_found found, started.trans moves⟩

theorem exists_of_mem_accounts {controller : Controller α} {occasions : List (Occasion σ)}
    {account : Account α} (member : account ∈ controller.accounts occasions) :
    ∃ (earlier : Controller α) (occasion : Occasion σ),
      earlier.config = controller.config ∧ account = (earlier.account occasion).2 := by
  induction occasions generalizing controller with
  | nil => cases member
  | cons occasion occasions ih =>
    rcases List.mem_cons.1 member with here | later
    · exact ⟨controller, occasion, rfl, here⟩
    · obtain ⟨earlier, moment, same, here⟩ := ih later
      exact ⟨earlier, moment, same.trans (controller.config_record occasion), here⟩

end Controller

section
variable {K : Type} [ExactField K]

/-- Copies are needed only where some partition changes its host, and the search has no such
answer but for a lower estimate. -/
theorem Account.Launches.estimate_lt {account : Account K} {config : Config K}
    {deliberation : Deliberation K} {evaluation : Evaluation K} {reason : Reason}
    {candidate : Solution K}
    (launches : account.Launches config deliberation evaluation reason candidate)
    (starts : account.started ≠ [])
    (fits : ∀ host held, deliberation.topology.placement.partitionsOn host = some held →
      held.size ≤ config.maxPartitionsPerHost) :
    candidate.estimate < evaluation.evidence.estimate := by
  let sample := deliberation.sample config.maxSamplesPerGroup
  let current := deliberation.topology.placement
  have room : ∀ host, current.byPartition.values.count host ≤ config.searchLimits.perHost := by
    intro host
    rw [Placement.count_values_byPartition]
    exact Placement.countP_byPartition_le fits host
  have positive : (0 : K) ≤ estimatedTime sample current := estimatedTime_nonneg sample current
  obtain ⟨solution, found, outcome⟩ := SearchProblem.exists_kept_or_better (K := K) sample
    deliberation.topology.hosts room
  obtain rfl : solution = candidate := Option.some.inj (found.symm.trans launches.found)
  rw [launches.present]
  rcases outcome with ⟨kept, _⟩ | better
  · have few := (Plan.claimed_make current solution.placement deliberation.topology).2
    rw [Placement.movedCount_eq_zero kept, Nat.le_zero, List.length_eq_zero_iff] at few
    rw [launches.started] at starts
    exact absurd (List.map_eq_nil_iff.1 few) starts
  · linarith

/-- A controller that begins to migrate has decided on a candidate and asks for the copies that
this one needs. From a current placement within the capacity the candidate's estimate is below
the current one, whatever rule granted it and wherever the search stopped. -/
theorem migrates_for_less {σ : Type} [Environment σ] (config : Config K)
    (occasions : List (Occasion σ)) :
    ∀ account ∈ (Controller.new config).accounts occasions,
      account.before.isMigrating = false → account.after.isMigrating = true →
        ∃ deliberation evaluation reason candidate,
          account.Launches config deliberation evaluation reason candidate ∧
            ((∀ host held, deliberation.topology.placement.partitionsOn host = some held →
              held.size ≤ config.maxPartitionsPerHost) →
                candidate.estimate < evaluation.evidence.estimate) := by
  intro account member still migrating
  obtain ⟨earlier, occasion, same, rfl⟩ := Controller.exists_of_mem_accounts member
  have lawful := earlier.lawful_record occasion
  have starts : (earlier.account occasion).2.started ≠ [] := by
    intro none
    have before := lawful.isMigrating_before (Entry.accepted_eq_nil none) migrating
    exact Bool.false_ne_true (still.symm.trans before)
  obtain ⟨deliberation, evaluation, reason, candidate, launches⟩ :=
    earlier.launches_of_starts occasion starts
  rw [same] at launches
  exact ⟨deliberation, evaluation, reason, candidate, launches, launches.estimate_lt starts⟩

/-- The partition goes to the host that pays for it from afar. -/
theorem migrates_for_less_farPayment :
    let cluster : StagedCluster :=
      { topology := .new [100, 200] [⟨1, 100, some 101, true⟩, ⟨2, 200, none, false⟩] }
    let record : Record :=
      { txnId := 1, procedure := "pay", isSingle := true, partition := some 101
        initiatorHost := 200, initiatorSite := 2, coordinatorSite := 1
        latency := 900, messages := [] }
    let events : List Event := [.ready 0, .message 1 (.telemetry [record]), .epoch 2]
    let occasions := events.map fun event => { event, environment := cluster : Occasion _ }
    let config : Config ℚ := { Config.standard with minGainPercent := 0 }
    ∃ account ∈ (Controller.new config).accounts occasions,
      account.before.isMigrating = false ∧ account.after.isMigrating = true ∧
        ∃ deliberation evaluation reason candidate,
          account.Launches config deliberation evaluation reason candidate ∧
            (∀ host held, deliberation.topology.placement.partitionsOn host = some held →
              held.size ≤ config.maxPartitionsPerHost) ∧
                candidate.estimate < evaluation.evidence.estimate := by
  intro cluster record events occasions config
  let log : List (Account ℚ) := (Controller.new config).accounts occasions
  let account : Account ℚ := log.get ⟨2, by decide⟩
  have member : account ∈ log := List.get_mem log _
  have still : account.before.isMigrating = false := by decide +kernel
  have migrating : account.after.isMigrating = true := by decide +kernel
  have small : account.deliberation.all fun deliberation =>
      deliberation.topology.placement.hosts.entries.all (·.2.size ≤ 8) := by decide +kernel
  obtain ⟨deliberation, evaluation, reason, candidate, launches, less⟩ :=
    migrates_for_less config occasions account member still migrating
  rw [launches.deliberated, Option.all_some, List.all_eq_true] at small
  have fits : ∀ host held, deliberation.topology.placement.partitionsOn host = some held →
      held.size ≤ config.maxPartitionsPerHost := by
    intro host held found
    exact of_decide_eq_true (small (host, held) (IdMap.get?_eq_some_iff.1 found))
  exact ⟨account, member, still, migrating, deliberation, evaluation, reason, candidate, launches,
    fits, less fits⟩

end

end Rebalance
