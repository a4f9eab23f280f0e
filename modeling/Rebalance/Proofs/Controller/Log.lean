import Rebalance.Proofs.Controller.Requests
import Rebalance.Proofs.Controller.Transitions
import Rebalance.Proofs.Migration.Plan
import Rebalance.Proofs.Search.Feasible

/-!
The log of a controller: everything it is told, with the requests that it makes in turn. The
cluster may answer as it likes and change as it likes between two events, and still each entry
is one of a few kinds.
-/

namespace Rebalance

inductive Event
  /-- The cluster can be asked from now on. -/
  | ready (now : Nat)
  | message (now : Nat) (message : Message)
  /-- The epoch is over. -/
  | epoch (now : Nat)
deriving Inhabited

def Event.acked? : Event → Option SiteId
  | message _ (.moveDone site) => some site
  | _ => none

/-- An event, with the cluster as it is at that moment. -/
structure Occasion (σ : Type) where
  event : Event
  environment : σ
deriving Inhabited

structure Entry where
  event : Event
  before : ControllerState
  /-- In the order of asking. -/
  requests : List Request
  after : ControllerState
deriving Inhabited

namespace Entry

def started (entry : Entry) : List Move := entry.requests.filterMap Request.started?

def accepted (entry : Entry) : List Move := entry.requests.filterMap Request.accepted?

def reported (entry : Entry) : List (HostId × SiteId) :=
  entry.requests.filterMap Request.reported?

end Entry

namespace Controller

variable {α : Type} [Scalar α] {σ : Type} [Environment σ]

def handle (controller : Controller α) (event : Event) (environment : σ) : Controller α × σ :=
  match event with
  | .ready now =>
    if controller.state = .startupWait then (controller.begin now, environment)
    else (controller, environment)
  | .message now message => controller.receive now message environment
  | .epoch now => controller.closeEpoch now environment

def record (controller : Controller α) (occasion : Occasion σ) : Controller α × Entry :=
  let watched : Watched σ := { inner := occasion.environment }
  let (next, watched) := controller.handle occasion.event watched
  (next,
    { event := occasion.event, before := controller.state
      requests := watched.requests, after := next.state })

/-- The log of a controller. Between two events the cluster may change in any way. -/
def log : Controller α → List (Occasion σ) → List Entry
  | _, [] => []
  | controller, occasion :: rest =>
    let (next, entry) := controller.record occasion
    entry :: next.log rest

theorem handle_watched (controller : Controller α) (event : Event) (watched : Watched σ) :
    (controller.handle event watched).1 = (controller.handle event watched.inner).1 := by
  cases event with
  | ready now =>
    unfold handle
    simp only
    split
    · rfl
    · rfl
  | message now message => exact (Watched.alike.receive controller now message rfl).same
  | epoch now => exact (Watched.alike.closeEpoch controller now rfl).same

end Controller

/-- What one event can come to. -/
inductive Entry.Lawful {α : Type} (config : Config α) : Entry → Prop where
  | quiet {event : Event} {before after : ControllerState} (still : before.isMigrating = false)
      (kept : after.isMigrating = false) : Lawful config ⟨event, before, [], after⟩
  | launched {now : Nat} {requests : List Request} {run : Run}
      (silent : requests.filterMap Request.reported? = [])
      (few : (requests.filterMap Request.started?).length ≤ config.maxPartitionsMoved)
      (distinct : ((requests.filterMap Request.started?).map (·.targetSite)).Nodup)
      (booked : Run.IsAwaited run.outstanding (requests.filterMap Request.accepted?))
      (fresh : run.completed = []) :
      Lawful config ⟨.epoch now, .collecting 0, requests,
        if run.outstanding.size = 0 then .collecting 0
        else .migrating run config.settleEpochs now⟩
  | kept {event : Event} {run : Run} {ignoreAfter lastProgress : Nat}
      (unknown : ∀ site, event.acked? = some site → run.outstanding.get? site = none) :
      Lawful config ⟨event, .migrating run ignoreAfter lastProgress, [],
        .migrating run ignoreAfter lastProgress⟩
  | progress {event : Event} {site : SiteId} {move : Move} {run : Run}
      {ignoreAfter lastProgress now : Nat} (acked : event.acked? = some site)
      (known : run.outstanding.get? site = some move)
      (more : (run.acknowledged move site).isComplete = false) :
      Lawful config ⟨event, .migrating run ignoreAfter lastProgress, [],
        .migrating (run.acknowledged move site) ignoreAfter now⟩
  | completed {event : Event} {requests : List Request} {site : SiteId} {move : Move} {run : Run}
      {ignoreAfter lastProgress : Nat} (acked : event.acked? = some site)
      (known : run.outstanding.get? site = some move)
      (last : (run.acknowledged move site).isComplete = true)
      (started : requests.filterMap Request.started? = [])
      (reported : requests.filterMap Request.reported? = (run.acknowledged move site).sources) :
      Lawful config ⟨event, .migrating run ignoreAfter lastProgress, requests,
        .collecting ignoreAfter⟩
  | abandoned {event : Event} {run : Run} {ignoreAfter lastProgress : Nat}
      (unacked : event.acked? = none) :
      Lawful config ⟨event, .migrating run ignoreAfter lastProgress, [], .collecting ignoreAfter⟩

namespace Controller

section
variable {α : Type} {config : Config α}

theorem lawful_unchanged {event : Event} (unacked : event.acked? = none)
    (state : ControllerState) : Entry.Lawful config ⟨event, state, [], state⟩ := by
  cases state with
  | startupWait => exact .quiet rfl rfl
  | collecting ignore => exact .quiet rfl rfl
  | migrating run ignoreAfter lastProgress =>
    apply Entry.Lawful.kept
    intro site acked
    rw [unacked] at acked
    cases acked

end

variable {α : Type} [Scalar α] {σ : Type} [Environment σ]

theorem lawful_ready (controller : Controller α) (now : Nat) (environment : σ) :
    (controller.record { event := .ready now, environment }).2.Lawful controller.config := by
  unfold record handle
  simp only
  split
  · next waiting =>
    rw [waiting]
    exact .quiet rfl rfl
  · exact lawful_unchanged rfl _

theorem lawful_ack (controller : Controller α) (now : Nat) (site : SiteId) (environment : σ) :
    (controller.record { event := .message now (.moveDone site), environment }).2.Lawful
      controller.config := by
  let watched : Watched σ := { inner := environment }
  have ended := ackEnd_receiveAck controller now site watched
  change Entry.Lawful controller.config ⟨.message now (.moveDone site), controller.state,
    (controller.receiveAck now site watched).2.requests,
    (controller.receiveAck now site watched).1.state⟩
  generalize (controller.receiveAck now site watched).1.state = after at ended ⊢
  generalize (controller.receiveAck now site watched).2 = final at ended ⊢
  generalize controller.state = before at ended ⊢
  cases ended with
  | ignored state unknown =>
    cases after with
    | startupWait => exact .quiet rfl rfl
    | collecting ignore => exact .quiet rfl rfl
    | migrating run ignoreAfter lastProgress =>
      apply Entry.Lawful.kept
      intro other acked
      cases acked
      exact unknown run ignoreAfter lastProgress rfl
  | progress known more => exact .progress rfl known more
  | @complete run move _ _ known last =>
    obtain ⟨asked, requests, started, reported⟩ :=
      Watched.exists_retired (run.acknowledged move site) watched
    change _ = [] ++ asked at requests
    rw [requests, List.nil_append]
    exact .completed rfl known last started reported

theorem lawful_message (controller : Controller α) (now : Nat) (message : Message)
    (environment : σ) :
    (controller.record { event := .message now message, environment }).2.Lawful
      controller.config := by
  cases message with
  | moveDone site => exact controller.lawful_ack now site environment
  | telemetry batch =>
    have same := controller.state_receiveBatch batch
    change Entry.Lawful controller.config ⟨.message now (.telemetry batch), controller.state, [],
      (controller.receiveBatch batch).state⟩
    rw [same]
    exact lawful_unchanged rfl _

/-- What is asked for in a launch keeps to the limit, for the search does. -/
theorem lawful_launch {config : Config α} {now : Nat} {topology : Topology} {sample : Sample}
    {candidate : Solution α} {watched : Watched σ} (bare : watched.requests = [])
    (solved : findPlacement config.searchLimits sample topology.placement topology.hosts =
      some candidate) :
    let launched := Run.dispatch {}
      (Plan.make topology.placement candidate.placement topology).moves watched
    Entry.Lawful config ⟨.epoch now, .collecting 0, launched.2.requests,
      if launched.1.outstanding.size = 0 then .collecting 0
      else .migrating launched.1 config.settleEpochs now⟩ := by
  intro launched
  obtain ⟨asked, dispatched⟩ := Watched.exists_dispatched {}
    (Plan.make topology.placement candidate.placement topology).moves watched
  obtain ⟨distinct, few⟩ :=
    Plan.claimed_make topology.placement candidate.placement topology
  rw [Plan.claimed, ← dispatched.started] at distinct few
  have requests : launched.2.requests = asked := by
    rw [dispatched.requests, bare, List.nil_append]
  have budget := (SearchProblem.feasible_of_found solved).budget
  rw [List.length_map] at few
  rw [requests]
  refine .launched dispatched.reported (Nat.le_trans few budget) distinct ?_ dispatched.completed
  have kept := (Request.accepted_sublist_started asked).map (·.targetSite)
  have unbooked : ∀ move ∈ asked.filterMap Request.accepted?, ∀ other ∈ ([] : List Move),
      other.targetSite ≠ move.targetSite := by
    simp
  have booked := Run.isAwaited_empty.foldl_insert (distinct.sublist kept) unbooked
  rw [← dispatched.outstanding] at booked
  exact booked

theorem lawful_epoch (controller : Controller α) (now : Nat) (environment : σ) :
    (controller.record { event := .epoch now, environment }).2.Lawful controller.config := by
  let watched : Watched σ := { inner := environment }
  have ended := epochEnd_closeEpoch controller now watched
  change Entry.Lawful controller.config ⟨.epoch now, controller.state,
    (controller.closeEpoch now watched).2.requests, (controller.closeEpoch now watched).1.state⟩
  generalize (controller.closeEpoch now watched).1.state = after at ended ⊢
  generalize (controller.closeEpoch now watched).2 = final at ended ⊢
  generalize controller.state = before at ended ⊢
  cases ended with
  | waiting => exact .quiet rfl rfl
  | ignored ignore => exact .quiet rfl rfl
  | stayed => exact .quiet rfl rfl
  | planned seen solved ran =>
    subst ran
    exact lawful_launch rfl solved
  | running run ignoreAfter lastProgress => exact lawful_unchanged rfl _
  | abandoned run ignoreAfter lastProgress => exact .abandoned rfl

theorem lawful_record (controller : Controller α) (occasion : Occasion σ) :
    (controller.record occasion).2.Lawful controller.config := by
  obtain ⟨event, environment⟩ := occasion
  cases event with
  | ready now => exact controller.lawful_ready now environment
  | message now message => exact controller.lawful_message now message environment
  | epoch now => exact controller.lawful_epoch now environment

theorem config_record (controller : Controller α) (occasion : Occasion σ) :
    (controller.record occasion).1.config = controller.config := by
  obtain ⟨event, environment⟩ := occasion
  cases event with
  | ready now =>
    unfold record handle
    simp only
    split
    · rfl
    · rfl
  | message now message =>
    cases message with
    | telemetry batch => exact controller.config_receiveBatch batch
    | moveDone site => exact controller.config_receiveAck now site _
  | epoch now => exact controller.config_closeEpoch now _

end Controller

/-- A log of lawful entries, each of which goes on from the state that the last one came to. -/
inductive LeadsTo {α : Type} (config : Config α) :
    ControllerState → List Entry → ControllerState → Prop where
  | nil (state : ControllerState) : LeadsTo config state [] state
  | cons {entry : Entry} {rest : List Entry} {state final : ControllerState}
      (here : entry.before = state) (lawful : entry.Lawful config)
      (later : LeadsTo config entry.after rest final) :
      LeadsTo config state (entry :: rest) final

theorem leadsTo_append {α : Type} {config : Config α} {first second : List Entry}
    {state final : ControllerState} (leads : LeadsTo config state (first ++ second) final) :
    ∃ middle, LeadsTo config state first middle ∧ LeadsTo config middle second final := by
  induction first generalizing state with
  | nil => exact ⟨state, .nil state, leads⟩
  | cons entry first ih =>
    cases leads with
    | cons here lawful later =>
      obtain ⟨middle, before, after⟩ := ih later
      exact ⟨middle, .cons here lawful before, after⟩

theorem Controller.leadsTo_log {α : Type} [Scalar α] {σ : Type} [Environment σ]
    (controller : Controller α) (occasions : List (Occasion σ)) :
    ∃ final, LeadsTo controller.config controller.state (controller.log occasions) final := by
  induction occasions generalizing controller with
  | nil => exact ⟨_, .nil _⟩
  | cons occasion occasions ih =>
    obtain ⟨final, later⟩ := ih (controller.record occasion).1
    rw [config_record] at later
    exact ⟨final, .cons rfl (controller.lawful_record occasion) later⟩

end Rebalance
