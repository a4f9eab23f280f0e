import Mathlib.Data.List.DropRight
import Rebalance.Proofs.Controller.Deliberation
import Rebalance.Proofs.Telemetry.Ledger

/-!
What the ledger holds: the first records of those that came while collecting, since an epoch
was last closed or collecting last began. All else is gone when a decision is taken.
-/

namespace Rebalance

def ControllerState.isCollecting : ControllerState → Bool
  | collecting _ => true
  | _ => false

def Event.isEpoch : Event → Bool
  | epoch _ => true
  | _ => false

def Event.batch : Event → List Record
  | message _ (.telemetry batch) => batch
  | _ => []

namespace Entry

def kept (entry : Entry) : List Record :=
  if entry.before.isCollecting then entry.event.batch else []

def renews (entry : Entry) : Bool :=
  entry.event.isEpoch || !entry.before.isCollecting && entry.after.isCollecting

/-- The records handled while collecting, since an epoch was last closed or collecting last
began. -/
def gathered (entries : List Entry) : List Record :=
  (entries.rtakeWhile (!·.renews)).flatMap kept

theorem gathered_concat_of_renews (entries : List Entry) {entry : Entry}
    (renewed : entry.renews = true) : gathered (entries ++ [entry]) = [] := by
  rw [gathered, List.rtakeWhile_concat_neg _ _ _ (by simp [renewed])]
  rfl

theorem gathered_concat (entries : List Entry) {entry : Entry} (goesOn : entry.renews = false) :
    gathered (entries ++ [entry]) = gathered entries ++ entry.kept := by
  rw [gathered, List.rtakeWhile_concat_pos _ _ _ (by simp [goesOn]), List.flatMap_append,
    List.flatMap_singleton, gathered]

end Entry

/-- A decision goes by these records and by no others. They are what is replayed into an empty
sample, and the gate judges what this sample comes to. -/
structure Deliberation.Sees {α : Type} [Scalar α] (deliberation : Deliberation α)
    (records : List Record) (cap : Nat) : Prop where
  held : deliberation.records = records
  replayed : deliberation.replayed = (replayRecords records (.new cap) deliberation.topology).2
  silent : deliberation.evaluation = none ↔ deliberation.replayed.isEmpty = true
  evidence : ∀ evaluation, deliberation.evaluation = some evaluation →
    evaluation.evidence = .of deliberation.replayed.reconcile deliberation.topology

namespace Controller

section
variable {α : Type} {σ : Type} [Environment σ]

theorem ledger_receiveAck (controller : Controller α) (now : Nat) (site : SiteId)
    (environment : σ) :
    (controller.receiveAck now site environment).1.ledger = controller.ledger := by
  unfold receiveAck
  split
  · split
    · rfl
    · rfl
    · rfl
  · rfl

theorem ledger_migrate (controller : Controller α) (now : Nat) (evidence : Evidence α)
    (reason : Reason) (candidate : Solution α) (environment : σ) :
    (controller.migrate now evidence reason candidate environment).1.ledger =
      controller.ledger := by
  unfold migrate
  simp only
  split
  · rfl
  · split
    · rfl
    · rfl

theorem ledger_receiveBatch_eq (controller : Controller α) (batch : List Record) :
    (controller.receiveBatch batch).ledger =
      if batch.isEmpty || controller.state.isCollecting then controller.ledger.foldBatch batch
      else controller.ledger := by
  have same (counted : Controller α) (kept : Bool) :
      (if kept then { counted with ledger := counted.ledger.foldBatch batch } else counted).ledger =
        if kept then counted.ledger.foldBatch batch else counted.ledger := by
    split
    · rfl
    · rfl
  exact same ..

theorem ledger_receiveBatch (controller : Controller α) (batch : List Record)
    (fits : controller.ledger.records.length ≤ controller.ledger.maxRetained) :
    (controller.receiveBatch batch).ledger.maxRetained = controller.ledger.maxRetained ∧
      (controller.receiveBatch batch).ledger.records =
        (controller.ledger.records ++ if controller.state.isCollecting then batch else []).take
          controller.ledger.maxRetained := by
  rw [ledger_receiveBatch_eq]
  cases collecting : controller.state.isCollecting with
  | true =>
    rw [Bool.or_true, if_pos rfl, if_pos rfl]
    exact Ledger.records_foldBatch batch fits
  | false =>
    rw [Bool.or_false, if_neg Bool.false_ne_true]
    split
    · next empty =>
      rw [List.isEmpty_iff.1 empty]
      exact Ledger.records_foldBatch [] fits
    · rw [List.append_nil, List.take_of_length_le fits]
      exact ⟨rfl, rfl⟩

structure Retains (controller : Controller α) (limit : Nat) (earlier : List Entry) : Prop where
  room : controller.ledger.maxRetained = limit
  records : controller.ledger.records = (Entry.gathered earlier).take limit
  idle : controller.state.isCollecting = false → Entry.gathered earlier = []

theorem Retains.fits {controller : Controller α} {limit : Nat} {earlier : List Entry}
    (retains : controller.Retains limit earlier) :
    controller.ledger.records.length ≤ controller.ledger.maxRetained := by
  rw [retains.records, retains.room]
  exact List.length_take_le ..

end

variable {α : Type} [Scalar α] {σ : Type} [Environment σ]

theorem ledger_conclude (controller : Controller α) (now : Nat) (deliberation : Deliberation α)
    (environment : σ) :
    (controller.conclude now deliberation environment).1.ledger = controller.ledger := by
  obtain ⟨_, _, touched⟩ := controller.exists_gather deliberation.topology
  unfold conclude
  simp only [touched]
  split
  · rfl
  · split
    · rfl
    · rfl
    · exact ledger_migrate ..

theorem ledger_decide (controller : Controller α) (now : Nat) (environment : σ) :
    (controller.decide now environment).1.ledger = controller.ledger := by
  rw [decide_eq]
  split
  · rfl
  · exact ledger_conclude ..

/-- The end of an epoch empties the ledger, unless nothing was collected for it. -/
theorem ledger_closeEpoch (controller : Controller α) (now : Nat) (environment : σ) :
    (controller.closeEpoch now environment).1.ledger =
      if controller.state.isCollecting then controller.ledger.clear else controller.ledger := by
  have closing := controller.closing_closeEpoch now environment
  generalize controller.closeEpoch now environment = after at closing ⊢
  cases closing with
  | waiting before =>
    rw [before]
    rfl
  | ignored before =>
    rw [before]
    rfl
  | decided before same =>
    subst same
    rw [before]
    exact congrArg Ledger.clear (ledger_decide ..)
  | running before =>
    rw [before]
    unfold checkProgress
    simp only
    split
    · rfl
    · rfl

theorem kept_record_of_idle (controller : Controller α) (occasion : Occasion σ)
    (idle : controller.state.isCollecting = false) : (controller.record occasion).2.kept = [] :=
  if_neg (Bool.eq_false_iff.1 idle)

theorem ledger_record (controller : Controller α) {occasion : Occasion σ}
    (unclosed : occasion.event.isEpoch = false)
    (fits : controller.ledger.records.length ≤ controller.ledger.maxRetained) :
    (controller.record occasion).1.ledger.maxRetained = controller.ledger.maxRetained ∧
      (controller.record occasion).1.ledger.records =
        (controller.ledger.records ++ (controller.record occasion).2.kept).take
          controller.ledger.maxRetained := by
  have unchanged (state : ControllerState) : controller.ledger.records =
      (controller.ledger.records ++ if state.isCollecting then [] else []).take
        controller.ledger.maxRetained := by
    rw [ite_self, List.append_nil, List.take_of_length_le fits]
  obtain ⟨event, environment⟩ := occasion
  cases event with
  | ready now =>
    unfold record handle
    simp only
    split
    · exact ⟨rfl, unchanged _⟩
    · exact ⟨rfl, unchanged _⟩
  | message now message =>
    cases message with
    | telemetry batch => exact controller.ledger_receiveBatch batch fits
    | moveDone site =>
      have same : (controller.record ⟨.message now (.moveDone site), environment⟩).1.ledger =
        controller.ledger := ledger_receiveAck ..
      rw [same]
      exact ⟨rfl, unchanged _⟩
  | epoch now => cases unclosed

theorem ledger_record_epoch (controller : Controller α) {occasion : Occasion σ}
    (closed : occasion.event.isEpoch = true) :
    (controller.record occasion).1.ledger =
      if controller.state.isCollecting then controller.ledger.clear else controller.ledger := by
  obtain ⟨event, environment⟩ := occasion
  cases event with
  | ready => cases closed
  | message => cases closed
  | epoch now => exact ledger_closeEpoch ..

theorem isCollecting_record (controller : Controller α) {occasion : Occasion σ}
    (unclosed : occasion.event.isEpoch = false)
    (collecting : controller.state.isCollecting = true) :
    (controller.record occasion).1.state.isCollecting = true := by
  obtain ⟨event, environment⟩ := occasion
  cases event with
  | ready now =>
    unfold record handle
    simp only
    split
    · rfl
    · exact collecting
  | message now message =>
    cases message with
    | telemetry batch =>
      exact (congrArg ControllerState.isCollecting (controller.state_receiveBatch batch)).trans
        collecting
    | moveDone site =>
      let watched : Watched σ := { inner := environment }
      have ended := controller.ackEnd_receiveAck now site watched
      change (controller.receiveAck now site watched).1.state.isCollecting = true
      generalize (controller.receiveAck now site watched).1.state = after at ended ⊢
      generalize (controller.receiveAck now site watched).2 = final at ended
      generalize controller.state = before at ended collecting
      cases ended with
      | ignored => exact collecting
      | progress => cases collecting
      | complete => rfl
  | epoch now => cases unclosed

theorem Retains.record {controller : Controller α} {limit : Nat} {earlier : List Entry}
    (retains : controller.Retains limit earlier) (occasion : Occasion σ) :
    (controller.record occasion).1.Retains limit (earlier ++ [(controller.record occasion).2]) := by
  cases closed : occasion.event.isEpoch with
  | true =>
    have renewed : (controller.record occasion).2.renews = true :=
      Bool.or_eq_true_iff.2 (.inl closed)
    have after := controller.ledger_record_epoch closed
    have none := Entry.gathered_concat_of_renews earlier renewed
    refine ⟨?_, ?_, fun _ => none⟩
    · rw [after]
      split
      · exact retains.room
      · exact retains.room
    · rw [after, none, List.take_nil]
      split
      · rfl
      · next still =>
        rw [retains.records, retains.idle (Bool.eq_false_iff.2 still), List.take_nil]
  | false =>
    obtain ⟨room, records⟩ := controller.ledger_record closed retains.fits
    cases renewed : (controller.record occasion).2.renews with
    | true =>
      have none := Entry.gathered_concat_of_renews earlier renewed
      have begun : (!controller.state.isCollecting &&
          (controller.record occasion).1.state.isCollecting) = true := by
        rwa [Entry.renews, show (controller.record occasion).2.event.isEpoch = false from closed,
          Bool.false_or] at renewed
      have idle : controller.state.isCollecting = false :=
        (Bool.not_eq_true' _).mp (Bool.and_eq_true_iff.1 begun).1
      refine ⟨room.trans retains.room, ?_, fun _ => none⟩
      rw [records, kept_record_of_idle _ _ idle, none, retains.records, retains.idle idle,
        List.take_nil, List.append_nil, List.take_nil]
    | false =>
      have more := Entry.gathered_concat earlier renewed
      refine ⟨room.trans retains.room, ?_, ?_⟩
      · rw [records, more, retains.records, retains.room, take_take_append]
      · intro still
        have idle : controller.state.isCollecting = false := by
          rw [← Bool.not_eq_true] at still ⊢
          exact fun collecting => still (controller.isCollecting_record closed collecting)
        rw [more, retains.idle idle, kept_record_of_idle _ _ idle, List.append_nil]

theorem retains_new (config : Config α) :
    (Controller.new config).Retains config.maxRetainedRecords [] :=
  ⟨rfl, List.take_nil.symm, fun _ => rfl⟩

theorem sees_deliberate (controller : Controller α) (topology : Topology) :
    (controller.deliberate topology).Sees controller.ledger.records
      controller.config.maxSamplesPerGroup where
  held := rfl
  replayed := controller.sample_replay topology
  silent := by
    unfold deliberate
    rw [Option.map_eq_none_iff, evidence_gather]
    simp only
    split
    · next empty => exact iff_of_true rfl empty
    · next filled => exact iff_of_false nofun filled
  evidence evaluation evaluated := by
    obtain ⟨evidence, gathered, rfl⟩ := Option.map_eq_some_iff.1 evaluated
    exact of_gather gathered

theorem Retains.sees {controller : Controller α} {limit : Nat} {earlier : List Entry}
    (retains : controller.Retains limit earlier) {occasions : List (Occasion σ)}
    {before later : List (Account α)} {account : Account α}
    (split : controller.accounts occasions = before ++ account :: later)
    {deliberation : Deliberation α} (decides : account.deliberation = some deliberation) :
    deliberation.Sees ((Entry.gathered (earlier ++ before.map (·.toEntry))).take limit)
      controller.config.maxSamplesPerGroup := by
  induction before generalizing controller earlier occasions with
  | nil =>
    cases occasions with
    | nil => cases split
    | cons occasion occasions =>
      obtain ⟨rfl, rfl⟩ := List.cons.inj split
      obtain ⟨topology, rfl⟩ := exists_deliberate decides
      rw [List.map_nil, List.append_nil, ← retains.records]
      exact controller.sees_deliberate topology
  | cons first before ih =>
    cases occasions with
    | nil => cases split
    | cons occasion occasions =>
      obtain ⟨rfl, rest⟩ := List.cons.inj split
      have later := ih (retains.record occasion) rest
      rwa [List.append_assoc, List.singleton_append, controller.config_record occasion] at later

end Controller

end Rebalance
