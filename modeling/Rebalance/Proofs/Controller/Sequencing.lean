import Mathlib.Data.List.Induction
import Rebalance.Controller.Staged
import Rebalance.Proofs.Controller.Log
import Rebalance.Proofs.Migration.Books

/-!
Runs in the log of a controller. A run begins with an entry that started copies, and goes on
for as long as the controller migrates. Until its end nothing is asked for; if it ends with the
last acknowledgement its sources are reported then, and otherwise never.
-/

namespace Rebalance

namespace Entry

/-- A run that was launched by this entry is still under way after the entries `during`. -/
structure Continues (launch : Entry) (during : List Entry) : Prop where
  accepted : launch.accepted ≠ []
  migrating : ∀ entry ∈ during, entry.after.isMigrating = true

def acks (entries : List Entry) : List SiteId := entries.filterMap (·.event.acked?)

def awaited (launch : Entry) (during : List Entry) : List Move :=
  launch.accepted.filter fun move => move.targetSite ∉ acks during

theorem acks_concat (entries : List Entry) (entry : Entry) :
    acks (entries ++ [entry]) = acks entries ++ entry.event.acked?.toList := by
  unfold acks
  rw [List.filterMap_append]
  cases acked : entry.event.acked? with
  | none => simp [acked]
  | some site => simp [acked]

theorem accepted_eq_nil {entry : Entry} (started : entry.started = []) : entry.accepted = [] :=
  List.eq_nil_of_sublist_nil (started ▸ Request.accepted_sublist_started entry.requests)

end Entry

/-- While a run is under way its books are those of its launch and the acknowledgements since,
and something is outstanding. -/
inductive UnderWay (launch : Entry) (during : List Entry) : ControllerState → Prop where
  | migrating {run : Run} {ignoreAfter lastProgress : Nat}
      (books : run.Books launch.accepted (Entry.acks during)) (waits : run.isComplete = false) :
      UnderWay launch during (.migrating run ignoreAfter lastProgress)

/-- The entry that ends a run by its last acknowledgement, and retires its sources. -/
structure Entry.Completes (last launch : Entry) (during : List Entry) : Prop where
  acked : ∃ move ∈ launch.awaited during, last.event.acked? = some move.targetSite
  started : last.started = []
  once : last.reported.Nodup
  reported : ∀ host site, (host, site) ∈ last.reported ↔
    ∃ move ∈ launch.accepted, move.sourceHost = host ∧ move.sourceSite = site

inductive Standing (launch : Entry) (during : List Entry) (next : Entry) : Prop where
  | goesOn (silent : next.requests = []) (under : UnderWay launch (during ++ [next]) next.after)
  | completed (ended : next.after.isMigrating = false)
      (left : launch.awaited (during ++ [next]) = []) (completes : next.Completes launch during)
  | abandoned (ended : next.after.isMigrating = false)
      (left : launch.awaited (during ++ [next]) ≠ []) (silent : next.requests = [])

section
variable {α : Type} {config : Config α} {launch : Entry} {during : List Entry}

/-- Nothing is asked for while acknowledgements are missing, nor when a run is given up. -/
theorem Standing.silent {next : Entry} (standing : Standing launch during next)
    (left : launch.awaited (during ++ [next]) ≠ []) : next.requests = [] := by
  cases standing with
  | goesOn silent => exact silent
  | completed _ none => exact absurd none left
  | abandoned _ _ silent => exact silent

theorem UnderWay.isMigrating {state : ControllerState} (under : UnderWay launch during state) :
    state.isMigrating = true := by
  cases under with
  | migrating => rfl

theorem UnderWay.awaited_ne_nil {state : ControllerState} (under : UnderWay launch during state) :
    launch.awaited during ≠ [] := by
  cases under with
  | migrating books waits =>
    intro none
    rw [books.isComplete_iff.2 none] at waits
    cases waits

theorem Entry.Lawful.underWay (lawful : launch.Lawful config) (accepted : launch.accepted ≠ []) :
    UnderWay launch [] launch.after := by
  cases lawful with
  | quiet | kept | progress | abandoned => exact absurd rfl accepted
  | completed acked known last started reported =>
    exact absurd (Entry.accepted_eq_nil (show Entry.started ⟨_, _, _, _⟩ = [] from started))
      accepted
  | @launched now requests run silent few distinct booked fresh =>
    have waits : run.isComplete = false := by
      rw [← Bool.not_eq_true]
      exact fun empty => accepted (booked.isEmpty_iff.1 empty)
    have filled : run.outstanding.size ≠ 0 := by
      intro none
      rw [Run.isComplete, IdMap.isEmpty, List.length_eq_zero_iff.1 none] at waits
      cases waits
    simp only [if_neg filled]
    refine .migrating ⟨fun site move => ?_, fun move => ?_⟩ waits
    · rw [booked site move]
      simp [Entry.acks, Entry.accepted]
    · simp [Entry.acks, fresh]

theorem Entry.Lawful.isMigrating_before {entry : Entry} (lawful : entry.Lawful config)
    (none : entry.accepted = []) (migrating : entry.after.isMigrating = true) :
    entry.before.isMigrating = true := by
  cases lawful with
  | quiet still kept => cases kept.symm.trans migrating
  | kept | progress | completed | abandoned => rfl
  | @launched now requests run silent few distinct booked fresh =>
    have empty := List.isEmpty_iff.1 (booked.isEmpty_iff.2 none)
    rw [if_pos (show run.outstanding.size = 0 from congrArg List.length empty)] at migrating
    cases migrating

theorem Entry.Lawful.isMigrating_of_reported {entry : Entry} (lawful : entry.Lawful config)
    (reports : entry.reported ≠ []) : entry.before.isMigrating = true := by
  cases lawful with
  | quiet => exact absurd rfl reports
  | launched silent => exact absurd silent reports
  | kept | progress | completed | abandoned => rfl

theorem Entry.Lawful.of_started {entry : Entry} (lawful : entry.Lawful config)
    (starts : entry.started ≠ []) :
    (∃ now, entry.event = .epoch now) ∧ entry.before = .collecting 0 := by
  cases lawful with
  | quiet | kept | progress | abandoned => exact absurd rfl starts
  | completed _ _ _ started => exact absurd started starts
  | @launched now => exact ⟨⟨now, rfl⟩, rfl⟩

theorem Entry.Lawful.bounded {entry : Entry} (lawful : entry.Lawful config) :
    entry.started.length ≤ config.maxPartitionsMoved ∧
      (entry.started.map (·.targetSite)).Nodup := by
  have none (bare : entry.started = []) : entry.started.length ≤ config.maxPartitionsMoved ∧
      (entry.started.map (·.targetSite)).Nodup := by
    rw [bare]
    exact ⟨Nat.zero_le _, List.nodup_nil⟩
  cases lawful with
  | quiet | kept | progress | abandoned => exact none rfl
  | completed _ _ _ started => exact none started
  | launched _ few distinct => exact ⟨few, distinct⟩

theorem Entry.acks_of_unacked {entry : Entry} (unacked : entry.event.acked? = none) :
    acks (during ++ [entry]) = acks during := by
  rw [acks_concat, unacked, Option.toList_none, List.append_nil]

theorem Entry.acks_of_acked {entry : Entry} {site : SiteId}
    (acked : entry.event.acked? = some site) :
    acks (during ++ [entry]) = acks during ++ [site] := by
  rw [acks_concat, acked, Option.toList_some]

/-- A run under way goes on, is completed or is given up, and only its completion asks for
anything. -/
theorem UnderWay.next {next : Entry} (under : UnderWay launch during next.before)
    (lawful : next.Lawful config) : Standing launch during next := by
  cases lawful with
  | quiet still => cases still.symm.trans under.isMigrating
  | launched => cases under
  | @kept event run ignoreAfter lastProgress unknown =>
    cases under with
    | migrating books waits =>
      refine .goesOn rfl (.migrating ?_ waits)
      cases acked : event.acked? with
      | none =>
        rw [Entry.acks_of_unacked acked]
        exact books
      | some site =>
        rw [Entry.acks_of_acked acked]
        exact books.unknown (unknown site acked)
  | progress acked known more =>
    cases under with
    | migrating books waits =>
      refine .goesOn rfl (.migrating ?_ more)
      rw [Entry.acks_of_acked acked]
      exact books.acknowledged known
  | @completed event requests site move run _ _ acked known last started reported =>
    cases under with
    | migrating books waits =>
      have final := books.acknowledged known
      have left := final.isComplete_iff.1 last
      obtain ⟨⟨member, here⟩, missing⟩ := (books.outstanding _ _).1 known
      have awaited : move ∈ launch.awaited during :=
        List.mem_filter.2 ⟨member, decide_eq_true (here ▸ missing)⟩
      refine .completed rfl ?_ ⟨⟨move, awaited, here ▸ acked⟩, started, ?_, fun host source => ?_⟩
      · rw [Entry.awaited, Entry.acks_of_acked acked]
        exact left
      · rw [Entry.reported, reported]
        exact Run.nodup_sources _
      · rw [Entry.reported, reported, Run.mem_sources]
        refine exists_congr fun other => and_congr_left fun _ => ?_
        rw [final.completed]
        -- Nothing is awaited any more, so every accepted move was acknowledged.
        refine and_iff_left_of_imp fun listed => ?_
        by_contra waiting
        exact List.not_mem_nil (left ▸ List.mem_filter.2 ⟨listed, decide_eq_true waiting⟩)
  | abandoned unacked =>
    refine .abandoned rfl ?_ rfl
    rw [Entry.awaited, Entry.acks_of_unacked unacked]
    exact under.awaited_ne_nil

theorem LeadsTo.underWay {state : ControllerState} (lawful : launch.Lawful config)
    (leads : LeadsTo config launch.after during state) (continues : launch.Continues during) :
    UnderWay launch during state ∧ ∀ entry ∈ during, entry.requests = [] := by
  induction during using List.reverseRecOn generalizing state with
  | nil =>
    cases leads
    exact ⟨lawful.underWay continues.accepted, fun _ member => nomatch member⟩
  | append_singleton during entry ih =>
    obtain ⟨middle, before, after⟩ := leadsTo_append leads
    cases after with
    | cons here next later =>
      cases later
      obtain ⟨under, silent⟩ := ih before ⟨continues.accepted, fun entry member =>
        continues.migrating entry (List.mem_append_left _ member)⟩
      have still := continues.migrating entry (List.mem_append_right _ List.mem_cons_self)
      subst here
      cases under.next next with
      | goesOn quiet further =>
        refine ⟨further, fun other member => ?_⟩
        rcases List.mem_append.1 member with old | new
        · exact silent other old
        · rw [List.mem_singleton.1 new]
          exact quiet
      | completed ended => cases ended.symm.trans still
      | abandoned ended => cases ended.symm.trans still

theorem LeadsTo.exists_launch {earlier : List Entry} {start state : ControllerState}
    (idle : start.isMigrating = false) (leads : LeadsTo config start earlier state)
    (migrating : state.isMigrating = true) :
    ∃ before launch during, earlier = before ++ launch :: during ∧ launch.Continues during := by
  induction earlier using List.reverseRecOn generalizing state with
  | nil =>
    cases leads
    cases idle.symm.trans migrating
  | append_singleton earlier entry ih =>
    obtain ⟨middle, before, after⟩ := leadsTo_append leads
    cases after with
    | cons here lawful later =>
      cases later
      by_cases launched : entry.accepted = []
      · have already : middle.isMigrating = true := by
          subst here
          exact lawful.isMigrating_before launched migrating
        obtain ⟨first, launch, during, rfl, continues⟩ := ih before already
        refine ⟨first, launch, during ++ [entry], by simp, continues.accepted, ?_⟩
        intro other member
        rcases List.mem_append.1 member with old | new
        · exact continues.migrating other old
        · rw [List.mem_singleton.1 new]
          exact migrating
      · exact ⟨earlier, entry, [], rfl, launched, fun _ member => nomatch member⟩

theorem LeadsTo.lawful {start final : ControllerState} {entries : List Entry}
    (leads : LeadsTo config start entries final) : ∀ entry ∈ entries, entry.Lawful config := by
  induction leads with
  | nil => exact fun _ member => nomatch member
  | cons here lawful later ih => exact List.forall_mem_cons.2 ⟨lawful, ih⟩

/-- How a run in a log stands after one more entry. -/
theorem LeadsTo.standing {start final : ControllerState} {earlier later : List Entry}
    {next : Entry} (leads : LeadsTo config start (earlier ++ launch :: (during ++ next :: later)) final)
    (continues : launch.Continues during) : Standing launch during next := by
  obtain ⟨_, _, fromLaunch⟩ := leadsTo_append leads
  cases fromLaunch with
  | cons _ launched since =>
    obtain ⟨_, meanwhile, rest⟩ := leadsTo_append since
    cases rest with
    | cons here lawful _ =>
      obtain ⟨under, _⟩ := meanwhile.underWay launched continues
      subst here
      exact under.next lawful

/-- Reports come from a run that was launched before and is completed by them. -/
theorem LeadsTo.exists_completed {start final : ControllerState} {earlier later : List Entry}
    {report : Entry} (idle : start.isMigrating = false)
    (leads : LeadsTo config start (earlier ++ report :: later) final)
    (reports : report.reported ≠ []) :
    ∃ before launch during, earlier = before ++ launch :: during ∧ launch.Continues during ∧
      launch.awaited (during ++ [report]) = [] ∧ report.Completes launch during := by
  obtain ⟨state, first, rest⟩ := leadsTo_append leads
  cases rest with
  | cons here lawful _ =>
    have migrating : state.isMigrating = true := by
      subst here
      exact lawful.isMigrating_of_reported reports
    obtain ⟨before, launch, during, rfl, continues⟩ := first.exists_launch idle migrating
    rw [List.append_assoc, List.cons_append] at leads
    refine ⟨before, launch, during, rfl, continues, ?_⟩
    cases leads.standing continues with
    | completed _ left completes => exact ⟨left, completes⟩
    | goesOn silent => exact absurd (congrArg (List.filterMap Request.reported?) silent) reports
    | abandoned _ _ silent =>
      exact absurd (congrArg (List.filterMap Request.reported?) silent) reports

end

/-- The order in which changes are asked for. A run is named by the entry that launched it and
those that have followed while it was under way. -/
structure Sequenced (limit : Nat) (log : List Entry) : Prop where
  /-- Copies are started at the end of an epoch in which the controller collects and has no
  epochs left to ignore, so never during a migration. -/
  starts : ∀ entry ∈ log, entry.started ≠ [] →
    (∃ now, entry.event = .epoch now) ∧ entry.before = .collecting 0
  /-- One run starts no more copies than the limit, and they go into different sites. -/
  bounded : ∀ entry ∈ log,
    entry.started.length ≤ limit ∧ (entry.started.map (·.targetSite)).Nodup
  /-- While accepted moves of a run are not acknowledged, nothing is asked for. -/
  waits : ∀ earlier launch during next later,
    log = earlier ++ launch :: (during ++ next :: later) → launch.Continues during →
      launch.awaited (during ++ [next]) ≠ [] → next.requests = []
  /-- With the acknowledgement of the last of them the run is over, and the sources of exactly
  the accepted moves are reported, each once. -/
  completes : ∀ earlier launch during last later,
    log = earlier ++ launch :: (during ++ last :: later) → launch.Continues during →
      launch.awaited (during ++ [last]) = [] →
        last.after.isMigrating = false ∧ last.Completes launch during
  /-- Nothing else is ever reported. -/
  reports : ∀ earlier report later, log = earlier ++ report :: later → report.reported ≠ [] →
    ∃ before launch during, earlier = before ++ launch :: during ∧ launch.Continues during ∧
      launch.awaited (during ++ [report]) = [] ∧ report.Completes launch during
  /-- After a run was given up, reports are those of runs launched since. -/
  abandoned : ∀ earlier launch during last later,
    log = earlier ++ launch :: (during ++ last :: later) → launch.Continues during →
      launch.awaited (during ++ [last]) ≠ [] → last.after.isMigrating = false →
        last.reported = [] ∧
          ∀ middle report rest, later = middle ++ report :: rest → report.reported ≠ [] →
            ∃ before other since, middle = before ++ other :: since ∧ other.Continues since ∧
              other.awaited (since ++ [report]) = [] ∧ report.Completes other since

/-- Whatever a controller is told, and whatever the cluster answers, it keeps to the order. -/
theorem sequenced_log {α : Type} [Scalar α] {σ : Type} [Environment σ] (config : Config α)
    (occasions : List (Occasion σ)) :
    Sequenced config.maxPartitionsMoved ((Controller.new config).log occasions) := by
  obtain ⟨final, leads⟩ := (Controller.new config).leadsTo_log occasions
  have idle : (Controller.new config).state.isMigrating = false := rfl
  constructor
  · exact fun entry member => (leads.lawful entry member).of_started
  · exact fun entry member => (leads.lawful entry member).bounded
  · intro earlier launch during next later same continues left
    rw [same] at leads
    exact (leads.standing continues).silent left
  · intro earlier launch during last later same continues none
    rw [same] at leads
    cases leads.standing continues with
    | goesOn _ under => exact absurd none under.awaited_ne_nil
    | completed ended _ completes => exact ⟨ended, completes⟩
    | abandoned _ left => exact absurd none left
  · intro earlier report later same reports
    rw [same] at leads
    exact leads.exists_completed idle reports
  · intro earlier launch during last later same continues left ended
    rw [same] at leads
    constructor
    · have silent := (leads.standing continues).silent left
      exact congrArg (List.filterMap Request.reported?) silent
    · intro middle report _ after reports
      rw [← List.cons_append, ← List.append_assoc] at leads
      obtain ⟨_, _, rest⟩ := leadsTo_append leads
      cases rest with
      | cons _ _ further =>
        rw [after] at further
        exact further.exists_completed ended reports

/-- One run: an unknown acknowledgement before the awaited one, and the same one again. -/
example :
    let cluster : StagedCluster :=
      { topology := .new [100, 200] [⟨1, 100, some 101, true⟩, ⟨2, 200, none, false⟩] }
    let record : Record :=
      { txnId := 1, procedure := "pay", isSingle := true, partition := some 101
        initiatorHost := 200, initiatorSite := 2, coordinatorSite := 1
        latency := 900, messages := [] }
    let events : List Event :=
      [.ready 0, .message 1 (.telemetry [record]), .epoch 2, .message 3 (.moveDone 7),
        .message 4 (.moveDone 2), .message 5 (.moveDone 2)]
    let occasions := events.map fun event => { event, environment := cluster : Occasion _ }
    ((Controller.new (Config.standard : Config Float)).log occasions).map (·.requests) =
      [[], [], [.startMove ⟨101, 100, 1, 200, 2⟩ true], [], [.retireSite 100 1 true], []] := by
  decide +kernel

end Rebalance
