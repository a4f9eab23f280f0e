import Rebalance.Controller.Staged
import Rebalance.Proofs.Controller.Course

/-!
When a controller decides, and how long it waits. After the start and after each migration it
ignores as many epochs as the settings say, and asks for the topology at the end of the next
one. A migration is given up at the first end of an epoch at which it has been idle for too
long; what is not acknowledged to it does not count against that.
-/

namespace Rebalance

/-- A cluster with a count of how often its topology was asked for. -/
structure Surveyed (σ : Type) where
  inner : σ
  snapshots : Nat := 0
deriving Inhabited

namespace Surveyed

variable {σ : Type} [Environment σ]

instance : Environment (Surveyed σ) where
  isReady surveyed :=
    let (ready, inner) := Environment.isReady surveyed.inner
    (ready, { surveyed with inner })
  snapshot surveyed :=
    let (topology, inner) := Environment.snapshot surveyed.inner
    (topology, { inner, snapshots := surveyed.snapshots + 1 })
  startMove move surveyed :=
    let (accepted, inner) := Environment.startMove move surveyed.inner
    (accepted, { surveyed with inner })
  retireSite host site surveyed :=
    let (accepted, inner) := Environment.retireSite host site surveyed.inner
    (accepted, { surveyed with inner })

theorem snapshots_dispatch (run : Run) (moves : List Move) (surveyed : Surveyed σ) :
    (Run.dispatch run moves surveyed).2.snapshots = surveyed.snapshots := by
  induction moves generalizing run surveyed with
  | nil => rfl
  | cons move moves ih =>
    rw [Run.dispatch_cons, ih]
    rfl

theorem snapshots_retireSources (run : Run) (surveyed : Surveyed σ) :
    (run.retireSources surveyed).2.snapshots = surveyed.snapshots := by
  have retired (sources : List (HostId × SiteId)) (state : Nat × Surveyed σ) :
      (sources.foldl Run.retireSource state).2.snapshots = state.2.snapshots := by
    induction sources generalizing state with
    | nil => rfl
    | cons source sources ih => exact ih _
  exact retired run.sources (0, surveyed)

end Surveyed

def ControllerState.isDue (state : ControllerState) (event : Event) : Bool :=
  event.isEpoch && state == .collecting 0

namespace Controller

section
variable {α : Type} {σ : Type} [Environment σ]

def withGate (controller : Controller α) (gate : Gate α) : Controller α := { controller with gate }

theorem receiveBatch_withGate (controller : Controller α) (gate : Gate α) (batch : List Record) :
    (controller.withGate gate).receiveBatch batch =
      (controller.receiveBatch batch).withGate gate := by
  unfold receiveBatch
  symm
  exact apply_ite (fun held : Controller α => held.withGate gate) (_ = true) _ _

theorem checkProgress_withGate (controller : Controller α) (gate : Gate α)
    (now ignoreAfter lastProgress : Nat) :
    (controller.withGate gate).checkProgress now ignoreAfter lastProgress =
      (controller.checkProgress now ignoreAfter lastProgress).withGate gate := by
  unfold checkProgress
  symm
  exact apply_ite (fun held : Controller α => held.withGate gate) (_ = true) _ _

theorem receiveAck_withGate (controller : Controller α) (gate : Gate α) (now : Nat)
    (site : SiteId) (environment : σ) :
    (controller.withGate gate).receiveAck now site environment =
      ((controller.receiveAck now site environment).1.withGate gate,
        (controller.receiveAck now site environment).2) := by
  obtain ⟨config, state, ledger, sample, capped, held, metrics, epoch⟩ := controller
  cases state with
  | startupWait | collecting => rfl
  | migrating run ignoreAfter lastProgress =>
    unfold receiveAck
    cases answer : run.acknowledge site with
    | mk outcome next =>
      simp only [withGate, answer]
      cases outcome with
      | ignored | progress | complete => rfl

theorem snapshots_receiveAck (controller : Controller α) (now : Nat) (site : SiteId)
    (surveyed : Surveyed σ) :
    (controller.receiveAck now site surveyed).2.snapshots = surveyed.snapshots := by
  have ended := controller.ackEnd_receiveAck now site surveyed
  generalize (controller.receiveAck now site surveyed).2 = final at ended ⊢
  generalize (controller.receiveAck now site surveyed).1.state = after at ended
  generalize controller.state = before at ended
  cases ended with
  | ignored | progress => rfl
  | complete => exact Surveyed.snapshots_retireSources ..

end

variable {α : Type} [Scalar α] {σ : Type} [Environment σ]

theorem snapshots_closeEpoch (controller : Controller α) (now : Nat) (surveyed : Surveyed σ) :
    (controller.closeEpoch now surveyed).2.snapshots =
      surveyed.snapshots + if controller.state = .collecting 0 then 1 else 0 := by
  have ended := controller.epochEnd_closeEpoch now surveyed
  generalize (controller.closeEpoch now surveyed).2 = final at ended ⊢
  generalize (controller.closeEpoch now surveyed).1.state = after at ended
  generalize controller.state = before at ended ⊢
  cases ended with
  | waiting | ignored | stayed | running | abandoned => rfl
  | planned seen solved ran =>
    rw [ran, Surveyed.snapshots_dispatch]
    rfl

/-- The topology is asked for once at the end of an epoch that is due, and never else. -/
theorem snapshots_handle (controller : Controller α) (event : Event) (surveyed : Surveyed σ) :
    (controller.handle event surveyed).2.snapshots =
      surveyed.snapshots + if controller.state.isDue event then 1 else 0 := by
  cases event with
  | ready now =>
    unfold handle
    simp only
    split
    · rfl
    · rfl
  | message now message =>
    cases message with
    | telemetry batch => rfl
    | moveDone site => exact snapshots_receiveAck ..
  | epoch now =>
    refine (controller.snapshots_closeEpoch now surveyed).trans ?_
    simp [ControllerState.isDue, Event.isEpoch]

/-- Whether the gate makes any difference to what comes of an event, or is left different. -/
def Consults (controller : Controller α) (occasion : Occasion σ) : Prop :=
  ∃ gate : Gate α,
    (controller.withGate gate).handle occasion.event occasion.environment ≠
      ((controller.handle occasion.event occasion.environment).1.withGate gate,
        (controller.handle occasion.event occasion.environment).2)

theorem closeEpoch_withGate (controller : Controller α) (gate : Gate α) (now : Nat)
    (early : controller.state ≠ .collecting 0) (environment : σ) :
    (controller.withGate gate).closeEpoch now environment =
      ((controller.closeEpoch now environment).1.withGate gate,
        (controller.closeEpoch now environment).2) := by
  obtain ⟨config, state, ledger, sample, capped, held, metrics, epoch⟩ := controller
  cases state with
  | startupWait => rfl
  | collecting ignore =>
    cases ignore with
    | zero => exact absurd rfl early
    | succ ignore => rfl
  | migrating run ignoreAfter lastProgress =>
    let running : Controller α :=
      ⟨config, .migrating run ignoreAfter lastProgress, ledger, sample, capped, held, metrics, epoch⟩
    have checked := (running.counted now).checkProgress_withGate gate now ignoreAfter lastProgress
    exact congrArg (·, environment) checked

/-- Unless an epoch ends that is due, the gate is carried along as it is. -/
theorem handle_withGate (controller : Controller α) (gate : Gate α) {event : Event}
    (early : controller.state.isDue event = false) (environment : σ) :
    (controller.withGate gate).handle event environment =
      ((controller.handle event environment).1.withGate gate,
        (controller.handle event environment).2) := by
  cases event with
  | ready now =>
    by_cases waiting : controller.state = .startupWait
    · simp only [handle, withGate, waiting, if_true]
      rfl
    · simp only [handle, withGate, waiting, if_false]
  | message now message =>
    cases message with
    | telemetry batch =>
      exact congrArg (·, environment) (controller.receiveBatch_withGate gate batch)
    | moveDone site => exact controller.receiveAck_withGate gate now site environment
  | epoch now =>
    apply controller.closeEpoch_withGate gate now
    intro due
    rw [due] at early
    cases early

theorem isDue_of_consults {controller : Controller α} {occasion : Occasion σ}
    (consults : controller.Consults occasion) :
    controller.state.isDue occasion.event = true := by
  by_contra early
  obtain ⟨gate, differs⟩ := consults
  exact differs (controller.handle_withGate gate (Bool.eq_false_iff.2 early) occasion.environment)

end Controller

/-- What came of one event, with how often the topology was asked for, and whether the gate had
to do with it. -/
structure Turn extends Entry where
  snapshots : Nat
  consults : Prop

namespace Controller

variable {α : Type} [Scalar α] {σ : Type} [Environment σ]

def turn (controller : Controller α) (occasion : Occasion σ) : Controller α × Turn :=
  let (next, entry) := controller.record occasion
  let surveyed : Surveyed σ := { inner := occasion.environment }
  (next,
    { toEntry := entry
      snapshots := (controller.handle occasion.event surveyed).2.snapshots
      consults := controller.Consults occasion })

def turns : Controller α → List (Occasion σ) → List Turn
  | _, [] => []
  | controller, occasion :: rest =>
    let (next, turn) := controller.turn occasion
    turn :: next.turns rest

end Controller

namespace Turn

/-- When a run has last made progress: at its launch, or with the latest acknowledgement that
was accepted since. -/
def lastProgress (launch : Turn) (during : List Turn) : Nat :=
  during.foldl (fun last turn => if turn.accepts then turn.event.time else last) launch.event.time

/-- Collecting begins, with the start or after a run, and so many epochs are to be ignored. -/
inductive Opens {α : Type} (config : Config α) (turn : Turn) : Nat → Prop where
  | started (waiting : turn.before = .startupWait) (begun : turn.after ≠ .startupWait) :
      Opens config turn config.startupIgnoreEpochs
  | migrated (migrating : turn.before.isMigrating = true)
      (ended : turn.after.isMigrating = false) : Opens config turn config.settleEpochs

structure Regular {α : Type} (config : Config α) (turn : Turn) : Prop where
  course : Course config turn.event turn.before turn.after
  snapshots : turn.snapshots = if turn.before.isDue turn.event then 1 else 0
  consults : turn.consults → turn.before.isDue turn.event = true

end Turn

def epochs (turns : List Turn) : Nat := turns.countP (·.event.isEpoch)

variable {α : Type} {config : Config α}

theorem Turn.Regular.snapshots_eq_zero {turn : Turn} (regular : turn.Regular config)
    (early : turn.before.isDue turn.event = false) : turn.snapshots = 0 := by
  rw [regular.snapshots, if_neg (Bool.eq_false_iff.1 early)]

/-- Where collecting begins there are as many epochs to ignore as the settings say. -/
theorem Turn.Regular.of_opens {turn : Turn} {count : Nat} (regular : turn.Regular config)
    (opens : turn.Opens config count) : turn.after = .collecting count := by
  have course := regular.course
  generalize turn.event = event at course
  cases opens with
  | started waiting begun =>
    rw [waiting] at course
    generalize turn.after = after at course begun ⊢
    cases course with
    | waits => exact absurd rfl begun
    | begins => rfl
  | migrated migrating ended =>
    generalize turn.after = after at course ended ⊢
    generalize turn.before = before at course migrating
    cases course with
    | waits | begins | collects | ignores | stays | launches => cases migrating
    | keeps | progresses => cases ended
    | completes | abandons => rfl

/-- Regular turns, each of which goes on from the state that the last one came to. -/
inductive Passes (config : Config α) : ControllerState → List Turn → ControllerState → Prop where
  | nil (state : ControllerState) : Passes config state [] state
  | cons {turn : Turn} {rest : List Turn} {state final : ControllerState}
      (here : turn.before = state) (regular : turn.Regular config)
      (later : Passes config turn.after rest final) : Passes config state (turn :: rest) final

namespace Passes

theorem append {first second : List Turn} {state final : ControllerState}
    (passes : Passes config state (first ++ second) final) :
    ∃ middle, Passes config state first middle ∧ Passes config middle second final := by
  induction first generalizing state with
  | nil => exact ⟨state, .nil state, passes⟩
  | cons turn first ih =>
    cases passes with
    | cons here regular later =>
      obtain ⟨middle, before, after⟩ := ih later
      exact ⟨middle, .cons here regular before, after⟩

theorem regular {turns : List Turn} {state final : ControllerState}
    (passes : Passes config state turns final) : ∀ turn ∈ turns, turn.Regular config := by
  induction passes with
  | nil => exact fun _ member => nomatch member
  | cons here regular later ih => exact List.forall_mem_cons.2 ⟨regular, ih⟩

/-- Ignored epochs are counted down, and meanwhile no topology is asked for. -/
theorem countdown {during : List Turn} {count : Nat} {state : ControllerState}
    (passes : Passes config (.collecting count) during state) (few : epochs during ≤ count) :
    state = .collecting (count - epochs during) ∧ ∀ turn ∈ during, turn.snapshots = 0 := by
  induction during generalizing count with
  | nil =>
    cases passes
    exact ⟨rfl, fun _ member => nomatch member⟩
  | cons turn during ih =>
    cases passes with
    | cons here regular later =>
      have course := regular.course
      rw [here] at course
      cases closed : turn.event.isEpoch with
      | false =>
        have counted : epochs (turn :: during) = epochs during :=
          List.countP_cons_of_neg (Bool.eq_false_iff.1 closed)
        rw [course.of_collecting closed] at later
        rw [counted] at few ⊢
        obtain ⟨after, silent⟩ := ih later few
        have early : turn.before.isDue turn.event = false := by
          rw [ControllerState.isDue, closed, Bool.false_and]
        exact ⟨after, List.forall_mem_cons.2 ⟨regular.snapshots_eq_zero early, silent⟩⟩
      | true =>
        have counted : epochs (turn :: during) = epochs during + 1 :=
          List.countP_cons_of_pos closed
        rw [counted] at few ⊢
        obtain ⟨ignore, rfl⟩ := Nat.exists_eq_add_of_le' (Nat.le_of_add_left_le few)
        rw [course.of_ignoring closed] at later
        obtain ⟨after, silent⟩ := ih later (Nat.le_of_succ_le_succ few)
        have early : turn.before.isDue turn.event = false := by
          rw [here, ControllerState.isDue, closed]
          rfl
        rw [Nat.add_sub_add_right]
        exact ⟨after, List.forall_mem_cons.2 ⟨regular.snapshots_eq_zero early, silent⟩⟩

theorem migrating {during : List Turn} {run : Run} {ignoreAfter since : Nat}
    {state : ControllerState}
    (passes : Passes config (.migrating run ignoreAfter since) during state)
    (goesOn : ∀ turn ∈ during, turn.after.isMigrating = true) :
    ∃ run, state = .migrating run ignoreAfter
      (during.foldl (fun last turn => if turn.accepts then turn.event.time else last) since) := by
  induction during generalizing run since with
  | nil =>
    cases passes
    exact ⟨run, rfl⟩
  | cons turn during ih =>
    cases passes with
    | cons here regular later =>
      obtain ⟨still, further⟩ := List.forall_mem_cons.1 goesOn
      have course := regular.course
      rw [here] at course
      obtain ⟨next, after⟩ := course.of_migrating still
      rw [after] at later
      rw [List.foldl_cons, Entry.accepts, here]
      exact ih later further

theorem next {earlier during later : List Turn} {opening next : Turn}
    {start final : ControllerState}
    (passes : Passes config start (earlier ++ opening :: (during ++ next :: later)) final) :
    opening.Regular config ∧ Passes config opening.after during next.before ∧
      next.Regular config := by
  obtain ⟨_, _, fromOpening⟩ := passes.append
  cases fromOpening with
  | cons _ opened since =>
    obtain ⟨_, meanwhile, rest⟩ := since.append
    cases rest with
    | cons here regular _ => exact ⟨opened, here ▸ meanwhile, regular⟩

end Passes

namespace Controller

variable [Scalar α] {σ : Type} [Environment σ]

theorem regular_turn (controller : Controller α)
    (settled : controller.state.Settles controller.config.settleEpochs) (occasion : Occasion σ) :
    (controller.turn occasion).2.Regular controller.config where
  course := controller.course_record settled occasion
  snapshots := (controller.snapshots_handle occasion.event _).trans (Nat.zero_add _)
  consults := isDue_of_consults

theorem passes_turns (controller : Controller α)
    (settled : controller.state.Settles controller.config.settleEpochs)
    (occasions : List (Occasion σ)) :
    ∃ final, Passes controller.config controller.state (controller.turns occasions) final := by
  induction occasions generalizing controller with
  | nil => exact ⟨_, .nil _⟩
  | cons occasion occasions ih =>
    have same : (controller.turn occasion).1.config = controller.config :=
      controller.config_record occasion
    have regular := controller.regular_turn settled occasion
    obtain ⟨final, later⟩ := ih (controller.turn occasion).1 (same ▸ regular.course.settles)
    rw [same] at later
    exact ⟨final, .cons rfl regular later⟩

end Controller

/-- How a controller goes through collecting and migrating. -/
structure Cycles (config : Config α) (turns : List Turn) : Prop where
  /-- The state changes in the ways of `Course` only. The topology is asked for once at the end
  of an epoch with none left to ignore, and only there the gate is consulted. -/
  regular : ∀ turn ∈ turns, turn.Regular config
  /-- The end of an epoch ends a migration exactly when it has made no progress for as long as
  the timeout says, if there is one. -/
  patience : ∀ earlier launch during next later now,
    turns = earlier ++ launch :: (during ++ next :: later) → launch.launches = true →
      (∀ turn ∈ during, turn.after.isMigrating = true) → next.event = .epoch now →
        (next.after.isMigrating = false ↔ config.migrationTimeout ≠ 0 ∧
          launch.lastProgress during + config.migrationTimeout ≤ now)
  /-- As many epochs are ignored as there are to be, and no topology is asked for until the end
  of the next one. -/
  cooldown : ∀ earlier opening during next later count,
    turns = earlier ++ opening :: (during ++ next :: later) → opening.Opens config count →
      next.event.isEpoch = true → epochs during ≤ count →
        (∀ turn ∈ during, turn.snapshots = 0) ∧
          next.before = .collecting (count - epochs during) ∧
            next.snapshots = if epochs during = count then 1 else 0

/-- Whatever a controller is told, and whatever the cluster answers, it goes through its states
in their order: after the start and after each migration it ignores as many epochs as the
settings say, and decides at the end of the next one. -/
theorem cycles_turns [Scalar α] {σ : Type} [Environment σ] (config : Config α)
    (occasions : List (Occasion σ)) : Cycles config ((Controller.new config).turns occasions) := by
  obtain ⟨final, passes⟩ := (Controller.new config).passes_turns trivial occasions
  constructor
  · exact passes.regular
  · intro earlier launch during next later now same launches goesOn closes
    rw [same] at passes
    obtain ⟨launched, meanwhile, regular⟩ := passes.next
    obtain ⟨idle, migrating⟩ := Bool.and_eq_true_iff.1 launches
    obtain ⟨run, after⟩ := launched.course.of_launch ((Bool.not_eq_true' _).mp idle) migrating
    rw [after] at meanwhile
    obtain ⟨run, before⟩ := meanwhile.migrating goesOn
    have course := regular.course
    rw [before, closes] at course
    exact course.of_epoch
  · intro earlier opening during next later count same opens closes few
    rw [same] at passes
    obtain ⟨opened, meanwhile, regular⟩ := passes.next
    rw [opened.of_opens opens] at meanwhile
    obtain ⟨before, silent⟩ := meanwhile.countdown few
    refine ⟨silent, before, ?_⟩
    have exhausted : count - epochs during = 0 ↔ epochs during = count := by omega
    rw [regular.snapshots, ControllerState.isDue, closes, before]
    simp only [Bool.true_and, beq_iff_eq, ControllerState.collecting.injEq, exhausted]

/-- One ignored epoch after the start, and none while a run is under way: it goes on until the
timeout, for the acknowledgement in between is ignored. -/
example :
    let cluster : StagedCluster :=
      { topology := .new [100, 200] [⟨1, 100, some 101, true⟩, ⟨2, 200, none, false⟩] }
    let record : Record :=
      { txnId := 1, procedure := "pay", isSingle := true, partition := some 101
        initiatorHost := 200, initiatorSite := 2, coordinatorSite := 1
        latency := 900, messages := [] }
    let config : Config Float :=
      { Config.standard with startupIgnoreEpochs := 1, settleEpochs := 1, migrationTimeout := 10 }
    let events : List Event :=
      [.ready 0, .epoch 1, .message 2 (.telemetry [record]), .epoch 3, .message 9 (.moveDone 7),
        .epoch 12, .epoch 13, .epoch 14, .epoch 15]
    let occasions := events.map fun event => { event, environment := cluster : Occasion _ }
    ((Controller.new config).turns occasions).map (fun turn => (turn.snapshots, turn.after.phase)) =
      [(0, .cooldown), (0, .collecting), (0, .collecting), (1, .migrating), (0, .migrating),
        (0, .migrating), (0, .cooldown), (0, .collecting), (1, .collecting)] := by
  decide +kernel

end Rebalance
