import Rebalance.Proofs.Controller.Accounting
import Rebalance.Proofs.Controller.Indifference
import Rebalance.Proofs.Gate.Rulings

/-!
How long a controller puts up with a placement that could be better. Its gate counts the
decisions that it held since it last granted a repartition, whether or not a migration came of
that. Decisions for which there was no placement do not count. Once enough have been held, any
gain will do.
-/

namespace Rebalance

section
variable {α : Type}

def Account.evaluation? (account : Account α) : Option (Evaluation α) :=
  account.deliberation.bind (·.evaluation)

def Account.decides (account : Account α) : Bool := account.evaluation?.isSome

def Account.grants (account : Account α) : Bool := account.evaluation?.any (·.verdict.isGrant)

def Account.holds (account : Account α) : Bool := account.evaluation?.any (·.verdict.isHold)

namespace Controller

variable {σ : Type} [Environment σ]

theorem gate_receiveAck (controller : Controller α) (now : Nat) (site : SiteId)
    (environment : σ) : (controller.receiveAck now site environment).1.gate = controller.gate := by
  unfold receiveAck
  split
  · split
    · rfl
    · rfl
    · rfl
  · rfl

theorem gate_migrate (controller : Controller α) (now : Nat) (evidence : Evidence α)
    (reason : Reason) (candidate : Solution α) (environment : σ) :
    (controller.migrate now evidence reason candidate environment).1.gate = controller.gate := by
  unfold migrate
  simp only
  split
  · rfl
  · split
    · rfl
    · rfl

theorem gate_checkProgress (controller : Controller α) (now ignoreAfter lastProgress : Nat) :
    (controller.checkProgress now ignoreAfter lastProgress).gate = controller.gate := by
  unfold checkProgress
  simp only
  split
  · rfl
  · rfl

end Controller

end

section
variable {α : Type} [Scalar α] {gate : Gate α} {evidence : Evidence α} {limits : SearchLimits}

/-- What the gate evaluates is no outlier, and the optimizer has an answer with a lower
estimate. -/
def Evaluation.isImprovable (evaluation : Evaluation α) (limits : SearchLimits) : Bool :=
  !evaluation.before.isOutlier evaluation.evidence.estimate &&
    (evaluation.evidence.solve limits).any fun candidate =>
      Scalar.lt candidate.estimate evaluation.evidence.estimate

def Account.isImprovable (account : Account α) (limits : SearchLimits) : Bool :=
  account.evaluation?.any (·.isImprovable limits)

/-- After enough holds there are grounds for any gain. -/
theorem Gate.exists_grounds (gate : Gate α) {current estimate : α}
    (better : Scalar.lt estimate current = true)
    (starved : gate.config.starvationEpochs ≤ gate.holds) :
    ∃ reason, gate.grounds current estimate = some reason := by
  unfold grounds
  split
  · exact ⟨.gain, rfl⟩
  · rw [if_pos (Bool.and_eq_true_iff.2 ⟨better, decide_eq_true starved⟩)]
    exact ⟨.starvation, rfl⟩

namespace Evidence

/-- What the evidence leads to is what the gate makes of a call with it. -/
theorem evaluate_eq (evidence : Evidence α) (limits : SearchLimits) (gate : Gate α) :
    evidence.evaluate limits gate =
      let ruled := gate.rule ⟨evidence.estimate, evidence.solve limits⟩
      { evidence, before := gate, verdict := ruled.1.verdict, after := ruled.2 } := by
  unfold evaluate Gate.rule Gate.evaluate
  cases gate.isOutlier evidence.estimate with
  | true | false => rfl

theorem config_evaluate (evidence : Evidence α) (limits : SearchLimits) (gate : Gate α) :
    (evidence.evaluate limits gate).after.config = gate.config := by
  rw [evaluate_eq]
  exact gate.config_rule _

theorem holds_evaluate (ungranted : (evidence.evaluate limits gate).verdict.isGrant = false) :
    (evidence.evaluate limits gate).after.holds =
      gate.holds + (evidence.evaluate limits gate).verdict.isHold.toNat := by
  rw [evaluate_eq] at ungranted ⊢
  exact (gate.holds_rule _).trans (if_neg (Bool.eq_false_iff.1 ungranted))

theorem isGrant_of_starved
    (improvable : (evidence.evaluate limits gate).isImprovable limits = true)
    (starved : gate.config.starvationEpochs ≤ gate.holds) :
    (evidence.evaluate limits gate).verdict.isGrant = true := by
  obtain ⟨_, found⟩ := Bool.and_eq_true_iff.1 improvable
  obtain ⟨best, answer, better⟩ := (Option.any_eq_true _ _).1 found
  have solved : evidence.solve limits = some best := answer
  rw [evaluate_eq]
  have ruled := gate.ruled_rule ⟨evidence.estimate, evidence.solve limits⟩
  generalize gate.rule ⟨evidence.estimate, evidence.solve limits⟩ = outcome at ruled ⊢
  cases ruled with
  | outlier | granted => rfl
  | infeasible _ unanswered => cases unanswered.symm.trans solved
  | held _ candidate answered groundless =>
    obtain rfl : candidate = best := Option.some.inj (answered.symm.trans solved)
    obtain ⟨reason, granted⟩ := gate.exists_grounds better starved
    cases groundless.symm.trans granted

end Evidence

namespace Controller

variable {σ : Type} [Environment σ] {controller : Controller α}

theorem accounts_cons (controller : Controller α) (occasion : Occasion σ)
    (rest : List (Occasion σ)) :
    controller.accounts (occasion :: rest) =
      (controller.account occasion).2 :: (controller.record occasion).1.accounts rest := rfl

theorem gate_conclude (controller : Controller α) (now : Nat) (deliberation : Deliberation α)
    (environment : σ) : (controller.conclude now deliberation environment).1.gate =
      (deliberation.evaluation.map (·.after)).getD controller.gate := by
  obtain ⟨_, _, touched⟩ := controller.exists_gather deliberation.topology
  unfold conclude
  simp only [touched]
  cases deliberation.evaluation with
  | none => rfl
  | some evaluation =>
    simp only
    split
    · rfl
    · rfl
    · exact gate_migrate ..

theorem gate_closeEpoch (controller : Controller α) (now : Nat) (watched : Watched σ) :
    (controller.closeEpoch now watched).1.gate =
      ((controller.account ⟨.epoch now, watched.inner⟩).2.evaluation?.map (·.after)).getD
        controller.gate := by
  have closing := controller.closing_closeEpoch now watched
  generalize controller.closeEpoch now watched = after at closing ⊢
  unfold Account.evaluation?
  change _ = (((controller.deliberation? ⟨.epoch now, watched.inner⟩).bind _).map _).getD _
  unfold deliberation?
  cases closing with
  | waiting before | ignored before =>
    simp only [before]
    rfl
  | running before =>
    simp only [before]
    exact gate_checkProgress ..
  | decided before same =>
    subst same
    have shown : Environment.snapshot watched =
      ((Environment.snapshot watched.inner).1,
        { watched with inner := (Environment.snapshot watched.inner).2 }) := rfl
    simp only [before]
    rw [decide_eq, shown]
    cases (Environment.snapshot watched.inner).1 with
    | none => rfl
    | some topology =>
      simp only [Option.map_some, Option.bind_some]
      rw [← deliberate_deciding controller now]
      exact (controller.deciding now).gate_conclude ..

theorem gate_record (controller : Controller α) (occasion : Occasion σ) :
    (controller.record occasion).1.gate =
      ((controller.account occasion).2.evaluation?.map (·.after)).getD controller.gate := by
  obtain ⟨event, environment⟩ := occasion
  cases event with
  | ready now =>
    unfold record handle
    simp only
    split
    · rfl
    · rfl
  | message now message =>
    cases message with
    | telemetry batch => exact controller.gate_receiveBatch batch
    | moveDone site => exact controller.gate_receiveAck now site _
  | epoch now => exact controller.gate_closeEpoch now { inner := environment }

theorem exists_evaluate {occasion : Occasion σ} {evaluation : Evaluation α}
    (evaluated : (controller.account occasion).2.evaluation? = some evaluation) :
    ∃ evidence : Evidence α,
      evaluation = evidence.evaluate controller.config.searchLimits controller.gate := by
  obtain ⟨deliberation, deliberated, here⟩ := Option.bind_eq_some_iff.1 evaluated
  obtain ⟨topology, rfl⟩ := exists_deliberate deliberated
  obtain ⟨evidence, _, rfl⟩ := Option.map_eq_some_iff.1 here
  exact ⟨evidence, rfl⟩

theorem gateConfig_record (controller : Controller α) (occasion : Occasion σ) :
    (controller.record occasion).1.gate.config = controller.gate.config := by
  rw [gate_record]
  cases evaluated : (controller.account occasion).2.evaluation? with
  | none => rfl
  | some evaluation =>
    obtain ⟨evidence, rfl⟩ := exists_evaluate evaluated
    exact evidence.config_evaluate _ _

theorem holds_record (controller : Controller α) (occasion : Occasion σ)
    (ungranted : (controller.account occasion).2.grants = false) :
    (controller.record occasion).1.gate.holds =
      controller.gate.holds + (controller.account occasion).2.holds.toNat := by
  unfold Account.grants at ungranted
  unfold Account.holds
  rw [gate_record]
  cases evaluated : (controller.account occasion).2.evaluation? with
  | none => rfl
  | some evaluation =>
    rw [evaluated] at ungranted
    obtain ⟨evidence, rfl⟩ := exists_evaluate evaluated
    exact Evidence.holds_evaluate ungranted

theorem grants_account {occasion : Occasion σ}
    (starved : controller.gate.config.starvationEpochs ≤ controller.gate.holds)
    (improvable : (controller.account occasion).2.isImprovable controller.config.searchLimits =
      true) : (controller.account occasion).2.grants = true := by
  obtain ⟨evaluation, evaluated, here⟩ := (Option.any_eq_true _ _).1 improvable
  obtain ⟨evidence, rfl⟩ := exists_evaluate evaluated
  exact (Option.any_eq_true _ _).2 ⟨_, evaluated, Evidence.isGrant_of_starved here starved⟩

theorem config_following (controller : Controller α) (occasions : List (Occasion σ)) :
    (controller.following occasions).config = controller.config ∧
      (controller.following occasions).gate.config = controller.gate.config := by
  induction occasions generalizing controller with
  | nil => exact ⟨rfl, rfl⟩
  | cons occasion occasions ih =>
    obtain ⟨config, gateConfig⟩ := ih (controller.record occasion).1
    exact ⟨config.trans (controller.config_record occasion),
      gateConfig.trans (controller.gateConfig_record occasion)⟩

theorem holds_following (controller : Controller α) (occasions : List (Occasion σ))
    (ungranted : ∀ account ∈ controller.accounts occasions, account.grants = false) :
    (controller.following occasions).gate.holds =
      controller.gate.holds + (controller.accounts occasions).countP (·.holds) := by
  induction occasions generalizing controller with
  | nil => rfl
  | cons occasion occasions ih =>
    rw [accounts_cons] at ungranted ⊢
    obtain ⟨here, later⟩ := List.forall_mem_cons.1 ungranted
    have counted := controller.holds_record occasion here
    rw [following, ih _ later, counted, List.countP_cons, Nat.add_assoc,
      Nat.add_comm (Bool.toNat _)]
    cases (controller.account occasion).2.holds with
    | true | false => rfl

theorem accounts_eq_append {occasions : List (Occasion σ)} {first second : List (Account α)}
    (split : controller.accounts occasions = first ++ second) :
    ∃ early late, occasions = early ++ late ∧ controller.accounts early = first ∧
      (controller.following early).accounts late = second := by
  induction first generalizing controller occasions with
  | nil => exact ⟨[], occasions, rfl, rfl, split⟩
  | cons account first ih =>
    cases occasions with
    | nil => cases split
    | cons occasion occasions =>
      rw [accounts_cons] at split
      obtain ⟨rfl, later⟩ := List.cons.inj split
      obtain ⟨early, late, rfl, before, after⟩ := ih later
      refine ⟨occasion :: early, late, rfl, ?_, after⟩
      rw [accounts_cons, before]

end Controller

/-- Once as many decisions were held as the settings say, with no repartition granted in between,
the gate grants one for any gain that is to be had, unless the estimate is an outlier. -/
theorem grants_of_starved {σ : Type} [Environment σ] (config : Config α)
    (occasions : List (Occasion σ)) {earlier since later : List (Account α)} {account : Account α}
    (split : (Controller.new config).accounts occasions = earlier ++ (since ++ account :: later))
    (ungranted : ∀ past ∈ since, past.grants = false)
    (starved : config.starvationEpochs ≤ since.countP (·.holds))
    (improvable : account.isImprovable config.searchLimits = true) : account.grants = true := by
  obtain ⟨first, rest, _, _, afterFirst⟩ := Controller.accounts_eq_append split
  obtain ⟨second, last, _, rfl, afterSecond⟩ := Controller.accounts_eq_append afterFirst
  cases last with
  | nil => cases afterSecond
  | cons occasion last =>
    rw [Controller.accounts_cons] at afterSecond
    obtain ⟨rfl, _⟩ := List.cons.inj afterSecond
    let granting := (Controller.new config).following first
    have counted := granting.holds_following second ungranted
    obtain ⟨sameFirst, gateFirst⟩ := (Controller.new config).config_following first
    obtain ⟨same, gate⟩ := granting.config_following second
    apply Controller.grants_account
    · rw [gate, gateFirst, counted]
      exact starved.trans (Nat.le_add_left _ _)
    · rwa [same, sameFirst]

end

/-- With one decision held, any gain will do; before, the candidate would have to take no time
at all. -/
def starvingConfig : Config Float :=
  { Config.standard with minGainPercent := 100, starvationEpochs := 1, maxPartitionsPerHost := 1 }

def farCluster : StagedCluster :=
  { topology := .new [100, 200] [⟨1, 100, some 101, true⟩, ⟨2, 200, none, false⟩] }

def crowdedCluster : StagedCluster :=
  { topology := .new [100, 200] [⟨1, 100, some 101, true⟩, ⟨2, 200, none, false⟩,
      ⟨3, 100, some 102, true⟩, ⟨4, 100, some 103, true⟩] }

def starvingRun (moments : List StagedCluster) : List (Account Float) :=
  let epoch (cluster : StagedCluster) : List (Occasion StagedCluster) :=
    [⟨.message 1 (.telemetry [farPayment]), cluster⟩, ⟨.epoch 2, cluster⟩]
  (Controller.new starvingConfig).accounts (⟨.ready 0, farCluster⟩ :: moments.flatMap epoch)

theorem grants_of_starved_secondEpoch :
    ∃ (since : List (Account Float)) (account : Account Float),
      starvingRun [farCluster, farCluster] = [] ++ (since ++ account :: []) ∧
        (∀ past ∈ since, past.grants = false) ∧
          starvingConfig.starvationEpochs ≤ since.countP (·.holds) ∧
            account.isImprovable starvingConfig.searchLimits = true ∧ account.grants = true := by
  let log := starvingRun [farCluster, farCluster]
  let account : Account Float := log.getLast (List.cons_ne_nil _ _)
  have split : log = [] ++ (log.dropLast ++ account :: []) :=
    (List.dropLast_append_getLast _).symm
  have ungranted : ∀ past ∈ log.dropLast, past.grants = false := by decide +kernel
  have starved : starvingConfig.starvationEpochs ≤ log.dropLast.countP (·.holds) := by
    decide +kernel
  have improvable : account.isImprovable starvingConfig.searchLimits = true := by
    decide +kernel
  exact ⟨_, _, split, ungranted, starved, improvable,
    grants_of_starved starvingConfig _ split ungranted starved improvable⟩

/-- Decisions that are not held do not count. In the first run there was no placement for the
crowd, in the second one the cluster refused what had been granted after the first hold. No
migration has come of any decision, and yet the last one is held. -/
theorem held_though_starved :
    let refusing := { farCluster with rejectMoves := .ofList [2] }
    ∀ log ∈ [starvingRun [crowdedCluster, farCluster],
      starvingRun [refusing, refusing, farCluster]],
        (∀ past ∈ log.dropLast, past.launches = false) ∧
          starvingConfig.starvationEpochs ≤ log.dropLast.countP (·.decides) ∧
            log.getLast?.map (fun last => (last.isImprovable starvingConfig.searchLimits,
              last.grants)) = some (true, false) := by
  decide +kernel

end Rebalance
