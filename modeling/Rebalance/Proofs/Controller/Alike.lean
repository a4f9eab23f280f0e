import Rebalance.Controller.Basic

/-!
A controller learns of its cluster only by what it asks. With two clusters that answer alike,
and stay so, it does the same.
-/

namespace Rebalance

variable {σ τ : Type}

/-- The same result, and related environments after it. -/
structure Alongside {β : Type} (related : σ → τ → Prop) (first : β × σ) (second : β × τ) :
    Prop where
  same : first.1 = second.1
  after : related first.2 second.2

theorem Alongside.foldl {β ι : Type} {related : σ → τ → Prop} {step : β × σ → ι → β × σ}
    {stepToo : β × τ → ι → β × τ}
    (keeps : ∀ {first second} (item : ι), Alongside related first second →
      Alongside related (step first item) (stepToo second item))
    (items : List ι) {first : β × σ} {second : β × τ} (known : Alongside related first second) :
    Alongside related (items.foldl step first) (items.foldl stepToo second) := by
  induction items generalizing first second with
  | nil => exact known
  | cons item items ih => exact ih (keeps item known)

variable [Environment σ] [Environment τ]

structure Environment.Alike (related : σ → τ → Prop) : Prop where
  isReady : ∀ {first second}, related first second →
    Alongside related (Environment.isReady first) (Environment.isReady second)
  snapshot : ∀ {first second}, related first second →
    Alongside related (Environment.snapshot first) (Environment.snapshot second)
  startMove : ∀ {first second} (move : Move), related first second →
    Alongside related (Environment.startMove move first) (Environment.startMove move second)
  retireSite : ∀ {first second} (host : HostId) (site : SiteId), related first second →
    Alongside related (Environment.retireSite host site first)
      (Environment.retireSite host site second)

namespace Environment.Alike

variable {related : σ → τ → Prop} (alike : Alike related) {first : σ} {second : τ}
include alike

theorem dispatch (run : Run) (moves : List Move) (known : related first second) :
    Alongside related (Run.dispatch run moves first) (Run.dispatch run moves second) := by
  refine Alongside.foldl ?_ moves ⟨rfl, known⟩
  intro state other move along
  obtain ⟨same, after⟩ := alike.startMove move along.after
  unfold Run.dispatchMove
  simp only [same, along.same]
  split
  · exact ⟨rfl, after⟩
  · exact ⟨rfl, after⟩

theorem retireSources (run : Run) (known : related first second) :
    Alongside related (run.retireSources first) (run.retireSources second) := by
  refine Alongside.foldl ?_ run.sources ⟨rfl, known⟩
  intro state other source along
  obtain ⟨same, after⟩ := alike.retireSite source.1 source.2 along.after
  unfold Run.retireSource
  simp only [same, along.same]
  exact ⟨rfl, after⟩

variable {α : Type} (controller : Controller α) (now : Nat)

theorem receiveAck (site : SiteId) (known : related first second) :
    Alongside related (controller.receiveAck now site first)
      (controller.receiveAck now site second) := by
  unfold Controller.receiveAck
  split
  · split
    · exact ⟨rfl, known⟩
    · exact ⟨rfl, known⟩
    · exact ⟨rfl, (alike.retireSources _ known).after⟩
  · exact ⟨rfl, known⟩

theorem receive (message : Message) (known : related first second) :
    Alongside related (controller.receive now message first)
      (controller.receive now message second) := by
  cases message with
  | telemetry batch => exact ⟨rfl, known⟩
  | moveDone site => exact alike.receiveAck controller now site known

theorem migrate (evidence : Evidence α) (reason : Reason) (candidate : Solution α)
    (known : related first second) :
    Alongside related (controller.migrate now evidence reason candidate first)
      (controller.migrate now evidence reason candidate second) := by
  unfold Controller.migrate
  simp only
  split
  · exact ⟨rfl, known⟩
  · obtain ⟨same, after⟩ := alike.dispatch {}
      (Plan.make evidence.placement candidate.placement evidence.topology).moves known
    rw [same]
    split
    · exact ⟨rfl, after⟩
    · exact ⟨rfl, after⟩

variable [Scalar α]

theorem decide (known : related first second) :
    Alongside related (controller.decide now first) (controller.decide now second) := by
  unfold Controller.decide
  cases asked : Environment.snapshot first with
  | mk shown left =>
    cases askedToo : Environment.snapshot second with
    | mk shownToo right =>
      have ⟨same, after⟩ := alike.snapshot known
      rw [asked, askedToo] at same after
      cases same
      cases shown with
      | none => exact ⟨rfl, after⟩
      | some topology =>
        simp only
        split
        · exact ⟨rfl, after⟩
        · split
          · exact ⟨rfl, after⟩
          · exact ⟨rfl, after⟩
          · exact alike.migrate _ now _ _ _ after

theorem closeEpoch (known : related first second) :
    Alongside related (controller.closeEpoch now first) (controller.closeEpoch now second) := by
  unfold Controller.closeEpoch
  simp only
  split
  · exact ⟨rfl, known⟩
  · exact ⟨rfl, known⟩
  · let next : Controller α := { controller with epoch := controller.epoch + 1 }
    let counted := next.modifyMetrics (·.recordEpoch now)
    have ⟨same, after⟩ := alike.decide (counted.modifyMetrics (·.setPhase .deciding)) now known
    rw [same]
    exact ⟨rfl, after⟩
  · exact ⟨rfl, known⟩

end Environment.Alike

end Rebalance
