import Rebalance.Proofs.Controller.Retained
import Rebalance.Proofs.Controller.Sequencing

/-!
The course of a controller: which state each event leads to from which other one. An epoch's
end counts down, decides, or gives up a run that has been idle for too long; acknowledgements
carry a run on to its end; nothing else changes the state.
-/

namespace Rebalance

def Event.time : Event → Nat
  | ready now => now
  | message now _ => now
  | epoch now => now

/-- What an event comes to for the state. After each run as many epochs are ignored as the
settings say. -/
inductive Course {α : Type} (config : Config α) :
    Event → ControllerState → ControllerState → Prop where
  | waits {event : Event} (unready : ∀ now, event ≠ .ready now) :
      Course config event .startupWait .startupWait
  | begins (now : Nat) :
      Course config (.ready now) .startupWait (.collecting config.startupIgnoreEpochs)
  | collects {event : Event} (ignore : Nat) (unclosed : event.isEpoch = false) :
      Course config event (.collecting ignore) (.collecting ignore)
  | ignores (now ignore : Nat) :
      Course config (.epoch now) (.collecting (ignore + 1)) (.collecting ignore)
  | stays (now : Nat) : Course config (.epoch now) (.collecting 0) (.collecting 0)
  | launches (now : Nat) {run : Run} (filled : run.outstanding.size ≠ 0) :
      Course config (.epoch now) (.collecting 0) (.migrating run config.settleEpochs now)
  | keeps {event : Event} (run : Run) (lastProgress : Nat)
      (unknown : ∀ site, event.acked? = some site → run.outstanding.get? site = none)
      (patient : ∀ now, event = .epoch now →
        ¬ (config.migrationTimeout ≠ 0 ∧ lastProgress + config.migrationTimeout ≤ now)) :
      Course config event (.migrating run config.settleEpochs lastProgress)
        (.migrating run config.settleEpochs lastProgress)
  | progresses (now : Nat) {lastProgress : Nat} {site : SiteId} {run : Run} {move : Move}
      (known : run.outstanding.get? site = some move)
      (more : (run.acknowledged move site).isComplete = false) :
      Course config (.message now (.moveDone site))
        (.migrating run config.settleEpochs lastProgress)
        (.migrating (run.acknowledged move site) config.settleEpochs now)
  | completes (now : Nat) {lastProgress : Nat} {site : SiteId} {run : Run} {move : Move}
      (known : run.outstanding.get? site = some move)
      (last : (run.acknowledged move site).isComplete = true) :
      Course config (.message now (.moveDone site))
        (.migrating run config.settleEpochs lastProgress) (.collecting config.settleEpochs)
  | abandons {now lastProgress : Nat} (run : Run) (timed : config.migrationTimeout ≠ 0)
      (late : lastProgress + config.migrationTimeout ≤ now) :
      Course config (.epoch now) (.migrating run config.settleEpochs lastProgress)
        (.collecting config.settleEpochs)

namespace ControllerState

def Settles (epochs : Nat) : ControllerState → Prop
  | migrating _ ignoreAfter _ => ignoreAfter = epochs
  | _ => True

def accepts (state : ControllerState) (event : Event) : Bool :=
  match state, event.acked? with
  | migrating run _ _, some site => (run.acknowledge site).1 != .ignored
  | _, _ => false

theorem accepts_of_known {run : Run} {site : SiteId} {move : Move}
    (known : run.outstanding.get? site = some move) (ignoreAfter lastProgress now : Nat) :
    (migrating run ignoreAfter lastProgress).accepts (.message now (.moveDone site)) = true := by
  unfold accepts Event.acked?
  simp only [Run.acknowledge_of_known known]
  split
  · rfl
  · rfl

theorem accepts_of_unknown {run : Run} {event : Event}
    (unknown : ∀ site, event.acked? = some site → run.outstanding.get? site = none)
    (ignoreAfter lastProgress : Nat) :
    (migrating run ignoreAfter lastProgress).accepts event = false := by
  unfold accepts
  cases acked : event.acked? with
  | none => rfl
  | some site =>
    simp only [Run.acknowledge_of_unknown (unknown site acked)]
    rfl

end ControllerState

namespace Entry

def accepts (entry : Entry) : Bool := entry.before.accepts entry.event

def launches (entry : Entry) : Bool := !entry.before.isMigrating && entry.after.isMigrating

end Entry

namespace Course

variable {α : Type} {config : Config α} {event : Event} {before after : ControllerState}

theorem settles (course : Course config event before after) :
    after.Settles config.settleEpochs := by
  cases course with
  | waits | begins | collects | ignores | stays | completes | abandons => trivial
  | launches | keeps | progresses => rfl

/-- What neither starts the controller nor ends an epoch nor acknowledges a move may leave the
state as it is. -/
theorem unchanged {state : ControllerState}
    (unready : state = .startupWait → ∀ now, event ≠ .ready now)
    (unclosed : event.isEpoch = false) (unacked : event.acked? = none)
    (settled : state.Settles config.settleEpochs) : Course config event state state := by
  cases state with
  | startupWait => exact .waits (unready rfl)
  | collecting ignore => exact .collects ignore unclosed
  | migrating run ignoreAfter lastProgress =>
    cases settled
    refine .keeps run lastProgress ?_ ?_
    · intro site acked
      rw [unacked] at acked
      cases acked
    · rintro now rfl
      cases unclosed

theorem of_collecting {ignore : Nat} (course : Course config event (.collecting ignore) after)
    (unclosed : event.isEpoch = false) : after = .collecting ignore := by
  cases course with
  | collects => rfl
  | ignores | stays | launches => cases unclosed

theorem of_ignoring {ignore : Nat} (course : Course config event (.collecting (ignore + 1)) after)
    (closed : event.isEpoch = true) : after = .collecting ignore := by
  cases course with
  | collects _ unclosed => cases unclosed.symm.trans closed
  | ignores => rfl

theorem of_launch (course : Course config event before after)
    (idle : before.isMigrating = false) (migrating : after.isMigrating = true) :
    ∃ run, after = .migrating run config.settleEpochs event.time := by
  cases course with
  | waits | begins | collects | ignores | stays => cases migrating
  | launches => exact ⟨_, rfl⟩
  | keeps | progresses | completes | abandons => cases idle

/-- The end of an epoch ends a run that has been idle for too long, and no other. -/
theorem of_epoch {run : Run} {ignoreAfter lastProgress now : Nat}
    (course : Course config (.epoch now) (.migrating run ignoreAfter lastProgress) after) :
    after.isMigrating = false ↔
      config.migrationTimeout ≠ 0 ∧ lastProgress + config.migrationTimeout ≤ now := by
  cases course with
  | keeps _ _ _ patient => exact iff_of_false nofun (patient now rfl)
  | abandons _ timed late => exact iff_of_true rfl ⟨timed, late⟩

theorem of_migrating {run : Run} {ignoreAfter lastProgress : Nat}
    (course : Course config event (.migrating run ignoreAfter lastProgress) after)
    (goesOn : after.isMigrating = true) :
    ∃ next, after = .migrating next ignoreAfter
      (if (ControllerState.migrating run ignoreAfter lastProgress).accepts event then event.time
        else lastProgress) := by
  cases course with
  | keeps _ _ unknown =>
    rw [ControllerState.accepts_of_unknown unknown]
    exact ⟨run, rfl⟩
  | progresses now known =>
    rw [ControllerState.accepts_of_known known]
    exact ⟨_, rfl⟩
  | completes | abandons => cases goesOn

end Course

namespace Controller

theorem state_checkProgress {α : Type} (controller : Controller α)
    (now ignoreAfter lastProgress : Nat) :
    (controller.checkProgress now ignoreAfter lastProgress).state =
      if controller.config.migrationTimeout ≠ 0 ∧
          lastProgress + controller.config.migrationTimeout ≤ now then .collecting ignoreAfter
      else controller.state := by
  unfold checkProgress
  have early (timeout : Nat) : (timeout = 0 || now - lastProgress < timeout) = true ↔
      ¬ (timeout ≠ 0 ∧ lastProgress + timeout ≤ now) := by
    simp only [Bool.or_eq_true, decide_eq_true_eq]
    omega
  simp only [early, ite_not]
  split
  · rfl
  · rfl

theorem course_ack {α : Type} {σ : Type} [Environment σ] (controller : Controller α)
    (settled : controller.state.Settles controller.config.settleEpochs) (now : Nat)
    (site : SiteId) (environment : σ) :
    Course controller.config (.message now (.moveDone site)) controller.state
      (controller.receiveAck now site environment).1.state := by
  have ended := controller.ackEnd_receiveAck now site environment
  generalize (controller.receiveAck now site environment).1.state = after at ended ⊢
  generalize (controller.receiveAck now site environment).2 = final at ended
  generalize controller.state = before at ended settled ⊢
  cases ended with
  | ignored state unknown =>
    cases after with
    | startupWait => exact .waits nofun
    | collecting ignore => exact .collects ignore rfl
    | migrating run ignoreAfter lastProgress =>
      cases settled
      refine .keeps run lastProgress ?_ nofun
      intro other acked
      cases acked
      exact unknown _ _ _ rfl
  | progress known more =>
    cases settled
    exact .progresses now known more
  | complete known last =>
    cases settled
    exact .completes now known last

variable {α : Type} [Scalar α] {σ : Type} [Environment σ]

theorem course_closeEpoch (controller : Controller α)
    (settled : controller.state.Settles controller.config.settleEpochs) (now : Nat)
    (environment : σ) :
    Course controller.config (.epoch now) controller.state
      (controller.closeEpoch now environment).1.state := by
  have closing := controller.closing_closeEpoch now environment
  generalize controller.closeEpoch now environment = after at closing ⊢
  cases closing with
  | waiting before =>
    change Course _ _ controller.state controller.state
    rw [before]
    exact .waits nofun
  | @ignored ignore before =>
    rw [before]
    exact .ignores now ignore
  | decided before same =>
    subst same
    have due : (controller.deciding now).state = .collecting 0 := before
    have ended := epochEnd_decide now environment due
    rw [before]
    simp only [state_setState]
    generalize ((controller.deciding now).decide now environment).1.state = after at ended ⊢
    generalize ((controller.deciding now).decide now environment).2 = final at ended
    cases ended with
    | stayed => exact .stays now
    | planned =>
      split
      · exact .stays now
      · next filled => exact .launches now filled
  | @running run ignoreAfter lastProgress before =>
    rw [state_checkProgress, show (controller.counted now).state = _ from before, before]
    rw [before] at settled
    cases settled
    split
    · next late => exact .abandons run late.1 late.2
    · next early =>
      refine .keeps run lastProgress nofun ?_
      intro other same
      cases same
      exact early

theorem course_record (controller : Controller α)
    (settled : controller.state.Settles controller.config.settleEpochs) (occasion : Occasion σ) :
    Course controller.config occasion.event controller.state
      (controller.record occasion).1.state := by
  obtain ⟨event, environment⟩ := occasion
  cases event with
  | ready now =>
    unfold record handle
    simp only
    split
    · next waiting =>
      rw [waiting]
      exact .begins now
    · next begun => exact .unchanged (fun waiting => absurd waiting begun) rfl rfl settled
  | message now message =>
    cases message with
    | telemetry batch =>
      change Course _ _ _ (controller.receiveBatch batch).state
      rw [state_receiveBatch]
      exact .unchanged (fun _ => nofun) rfl rfl settled
    | moveDone site => exact controller.course_ack settled now site _
  | epoch now => exact controller.course_closeEpoch settled now _

end Controller

end Rebalance
