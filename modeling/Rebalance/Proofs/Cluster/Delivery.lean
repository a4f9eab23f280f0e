import Rebalance.Proofs.Cluster.Progress
import Rebalance.Proofs.Controller.Accounting
import Rebalance.Proofs.Exact
import Rebalance.Simulation

/-!
Telemetry on its way from a driver to the controller. Records are divided into full batches and
what is left. The batches wait for the controller in the order of their sending, also where an
epoch ends before they are taken or nobody sends any more; each is taken once, and when the
controller stops it has counted the records of all.
-/

namespace Rebalance

theorem exists_of_bind {ε β γ : Type} {first : Except ε β} {next : β → Except ε γ} {c : γ}
    (ran : first >>= next = .ok c) : ∃ b, first = .ok b ∧ next b = .ok c := by
  cases first with
  | error error => cases ran
  | ok b => exact ⟨b, rfl, ran⟩

theorem of_mapError {ε ζ β : Type} {first : Except ε β} {f : ε → ζ} {b : β}
    (ran : first.mapError f = .ok b) : first = .ok b := by
  cases first with
  | error error => cases ran
  | ok other =>
    cases ran
    rfl

theorem of_toOption {ε β : Type} {first : Except ε β} {b : β} (ran : first.toOption = some b) :
    first = .ok b := by
  cases first with
  | error error => cases ran
  | ok other =>
    cases ran
    rfl

/-- A list in parts of a size; only the last of them may be shorter, and none is empty. -/
structure IsDivided {β : Type} (size : Nat) (items : List β) (parts : List (List β)) : Prop where
  whole : parts.flatten = items
  filled : ∀ part ∈ parts, 1 ≤ part.length ∧ part.length ≤ size
  full : ∀ part ∈ parts.dropLast, part.length = size

section Divided
variable {β : Type} {size : Nat} {part rest : List β} {parts : List (List β)}

theorem isDivided_nil : IsDivided size ([] : List β) [] := ⟨rfl, nofun, nofun⟩

theorem IsDivided.cons (divided : IsDivided size rest parts)
    (filled : 1 ≤ part.length ∧ part.length ≤ size) (full : rest ≠ [] → part.length = size) :
    IsDivided size (part ++ rest) (part :: parts) where
  whole := by rw [List.flatten_cons, divided.whole]
  filled := List.forall_mem_cons.2 ⟨filled, divided.filled⟩
  full := by
    cases parts with
    | nil => exact nofun
    | cons next parts =>
      have more : rest ≠ [] := by
        rintro rfl
        have long := (divided.filled next List.mem_cons_self).1
        have empty := List.flatten_eq_nil_iff.1 divided.whole next List.mem_cons_self
        rw [empty] at long
        exact Nat.not_succ_le_zero 0 long
      rw [List.dropLast_cons_cons]
      exact List.forall_mem_cons.2 ⟨full more, divided.full⟩

end Divided

namespace Simulation

theorem isDivided_batchesOf {size fuel : Nat} (positive : 1 ≤ size) (records : List Record)
    (enough : records.length ≤ fuel) :
    IsDivided size records (batchesOf size fuel records) := by
  induction fuel generalizing records with
  | zero =>
    obtain rfl := List.eq_nil_of_length_eq_zero (Nat.le_zero.1 enough)
    exact isDivided_nil
  | succ fuel ih =>
    cases records with
    | nil => exact isDivided_nil
    | cons record rest =>
      let items := record :: rest
      have fewer : (items.drop size).length ≤ fuel := by
        rw [List.length_drop]
        rw [List.length_cons] at enough
        simp only [items, List.length_cons]
        omega
      have filled : 1 ≤ (items.take size).length ∧ (items.take size).length ≤ size := by
        rw [List.length_take]
        simp only [items, List.length_cons]
        omega
      have full : items.drop size ≠ [] → (items.take size).length = size := by
        intro more
        have left := List.length_pos_of_ne_nil more
        rw [List.length_drop] at left
        rw [List.length_take]
        omega
      have parted := (ih (items.drop size) fewer).cons filled full
      rwa [List.take_append_drop] at parted

theorem isDivided_batches (records : List Record) :
    IsDivided maxBatchRecords records (batches records) :=
  isDivided_batchesOf (by decide) records (Nat.le_refl _)

theorem batches_of_short {records : List Record} (filled : 1 ≤ records.length)
    (short : records.length ≤ maxBatchRecords) : batches records = [records] := by
  cases records with
  | nil => exact absurd filled (by decide)
  | cons record rest =>
    rw [batches, List.length_cons, batchesOf, List.take_of_length_le short,
      List.drop_of_length_le short]
    cases rest.length <;> rfl

/-- The batches that are sent for some records; there is one for no records too. -/
def emitted (records : List Record) : List (List Record) :=
  if records.isEmpty then [[]] else batches records

theorem emitted_of_ne_nil {records : List Record} (some : records ≠ []) :
    emitted records = batches records := by
  cases records with
  | nil => exact absurd rfl some
  | cons record rest => rfl

end Simulation

def Event.batch? : Event → Option (List Record)
  | message _ sent => sent.batch?
  | _ => none

def Occasion.batches {σ : Type} (occasions : List (Occasion σ)) : List (List Record) :=
  occasions.filterMap (·.event.batch?)

theorem Occasion.flatten_batches {σ : Type} (occasions : List (Occasion σ)) :
    (batches occasions).flatten = occasions.flatMap (·.event.batch) := by
  induction occasions with
  | nil => rfl
  | cons occasion occasions ih =>
    obtain ⟨event, environment⟩ := occasion
    rw [List.flatMap_cons, ← ih]
    cases event with
    | ready | epoch => rfl
    | message now message => cases message <;> rfl

theorem Occasion.batches_concat {σ : Type} (occasions : List (Occasion σ)) (event : Event)
    (environment : σ) :
    batches (occasions ++ [⟨event, environment⟩]) =
      batches occasions ++ event.batch?.toList := by
  rw [batches, List.filterMap_append]
  cases event with
  | ready | epoch => rfl
  | message now message => cases message <;> rfl

namespace Controller

section
variable {α : Type} {σ : Type} [Environment σ]

theorem telemetryRecords_receiveBatch (controller : Controller α) (batch : List Record) :
    (controller.receiveBatch batch).metrics.telemetryRecords =
      controller.metrics.telemetryRecords + batch.length := by
  have counted : (controller.metrics.recordBatch batch.length).telemetryRecords =
      controller.metrics.telemetryRecords + batch.length := by
    unfold Metrics.recordBatch
    split
    · next none =>
      rw [none]
      rfl
    · rfl
  unfold receiveBatch
  simp only
  split
  · exact counted
  · exact counted

theorem telemetryRecords_receiveAck (controller : Controller α) (now : Nat) (site : SiteId)
    (environment : σ) :
    (controller.receiveAck now site environment).1.metrics.telemetryRecords =
      controller.metrics.telemetryRecords := by
  unfold receiveAck
  split
  · split
    · rfl
    · rfl
    · rfl
  · rfl

theorem telemetryRecords_checkProgress (controller : Controller α)
    (now ignoreAfter lastProgress : Nat) :
    (controller.checkProgress now ignoreAfter lastProgress).metrics.telemetryRecords =
      controller.metrics.telemetryRecords := by
  unfold checkProgress
  simp only
  split
  · rfl
  · rfl

theorem Outcome.telemetryRecords {now : Nat} {decided after : Controller α}
    (outcome : Outcome now decided after) :
    after.metrics.telemetryRecords = decided.metrics.telemetryRecords := by
  cases outcome with
  | stayed | infeasible | idle | refused => rfl
  | launched skipped reason run =>
    cases reason with
    | outlier | gain | starvation => rfl

end

variable {α : Type} [Scalar α] {σ : Type} [Environment σ]

theorem telemetryRecords_decide (controller : Controller α) (now : Nat) (environment : σ) :
    (controller.decide now environment).1.metrics.telemetryRecords =
      controller.metrics.telemetryRecords := by
  obtain ⟨sample, capped, decided⟩ := controller.outcome_decide now environment
  rcases decided with same | ⟨estimate, gate, outcome⟩
  · rw [same]
  · exact outcome.telemetryRecords

theorem telemetryRecords_closeEpoch (controller : Controller α) (now : Nat) (environment : σ) :
    (controller.closeEpoch now environment).1.metrics.telemetryRecords =
      controller.metrics.telemetryRecords := by
  have closing := controller.closing_closeEpoch now environment
  generalize controller.closeEpoch now environment = after at closing ⊢
  cases closing with
  | waiting | ignored => rfl
  | decided before same =>
    have kept := (controller.deciding now).telemetryRecords_decide now environment
    rw [same] at kept
    exact kept
  | running => exact telemetryRecords_checkProgress _ now _ _

/-- Whatever the controller is doing, the records of a batch are counted, and nothing else is. -/
theorem telemetryRecords_record (controller : Controller α) (occasion : Occasion σ) :
    (controller.record occasion).1.metrics.telemetryRecords =
      controller.metrics.telemetryRecords + occasion.event.batch.length := by
  obtain ⟨event, environment⟩ := occasion
  cases event with
  | ready now =>
    unfold record handle
    simp only
    split
    · rfl
    · rfl
  | message now message =>
    cases message with
    | telemetry batch => exact controller.telemetryRecords_receiveBatch batch
    | moveDone site => exact controller.telemetryRecords_receiveAck now site _
  | epoch now => exact controller.telemetryRecords_closeEpoch now _

/-- Every record of every batch is counted once, however the batches fall among acknowledgements
and the ends of epochs. -/
theorem telemetryRecords_following (controller : Controller α) (occasions : List (Occasion σ)) :
    (controller.following occasions).metrics.telemetryRecords =
      controller.metrics.telemetryRecords + (Occasion.batches occasions).flatten.length := by
  rw [Occasion.flatten_batches]
  induction occasions generalizing controller with
  | nil => rfl
  | cons occasion occasions ih =>
    rw [following, ih, telemetryRecords_record, List.flatMap_cons, List.length_append,
      Nat.add_assoc]

end Controller

namespace System

/-- A system whose controller was told of the first of these batches, in their order, and besides
only of its cluster and of time. The others wait for it; none does once it has stopped. -/
structure Told {α : Type} [Scalar α] (config : Config α) (batches : List (List Record))
    (system : System α) : Prop where
  heard : ∃ occasions : List (Occasion SimulatedCluster),
    system.Follows ((Controller.new config).following occasions) ∧
      Occasion.batches occasions ++ system.pending = batches
  asks : ∀ nextPoll, system.stage = .waiting nextPoll → system.controller.state = .startupWait
  drained : system.stage = .stopped → system.inbox = [] ∧ system.connected = false

variable {α : Type} [Scalar α] {config : Config α} {batches : List (List Record)}
variable {first last system after : System α} {batch? : Option (List Record)}

theorem told_start (config : Config α) (layout : Layout) (copyDelay now : Nat) :
    Told config [] (start config layout copyDelay now) where
  heard := ⟨[], rfl, rfl⟩
  asks _ _ := rfl
  drained := nofun

/-- One more event is heard. If it brings a batch, that is the first of those that waited. -/
theorem Told.next (told : Told config batches system) (event : Rebalance.Event)
    (environment : SimulatedCluster) {deadline : Nat} (going : system.stage ≠ .stopped)
    (running : after.stage = .running deadline)
    (handled : after.controller = (system.controller.handle event environment).1)
    (waited : system.pending = event.batch?.toList ++ after.pending) :
    Told config batches after := by
  obtain ⟨occasions, follows, brought⟩ := told.heard
  have same : system.controller = (Controller.new config).following occasions :=
    Eq.trans follows (if_neg going)
  refine ⟨⟨occasions ++ [⟨event, environment⟩], Follows.intro running ?_, ?_⟩, ?_, ?_⟩
  · rw [Controller.following_concat, ← same, handled]
    exact (Controller.handle_watched _ event { inner := environment }).symm
  · rw [Occasion.batches_concat, List.append_assoc, ← waited, brought]
  · intro nextPoll waiting
    cases running.symm.trans waiting
  · intro stopped
    cases running.symm.trans stopped

theorem Told.endCopy (told : Told config batches system) (copy : Copy) :
    Told config batches (system.endCopy copy) := by
  unfold System.endCopy
  simp only
  split
  · next connected =>
    obtain ⟨occasions, follows, brought⟩ := told.heard
    refine ⟨⟨occasions, follows, ?_⟩, told.asks, fun stopped => ?_⟩
    · rw [pending_enqueue]
      exact (congrArg _ (List.append_nil _)).trans brought
    · cases (told.drained stopped).2.symm.trans connected
  · exact { told with }

theorem Told.poll (told : Told config batches system) {nextPoll : Nat}
    (waiting : system.stage = .waiting nextPoll) : Told config batches (Loop.poll system) := by
  have fresh := told.asks nextPoll waiting
  have going : system.stage ≠ .stopped := waiting.trans_ne nofun
  unfold Loop.poll
  simp only
  split
  · have begun : (system.controller.handle (.ready system.now) system.environment).1 =
        system.controller.begin system.now := by
      unfold Controller.handle
      simp only [if_pos fresh]
    exact told.next (.ready system.now) system.environment going rfl begun.symm rfl
  · obtain ⟨occasions, follows, brought⟩ := told.heard
    have same := follows.of_waiting waiting
    exact ⟨⟨occasions, same, brought⟩, fun _ _ => fresh, nofun⟩

theorem Told.receive (told : Told config batches system) {deadline : Nat} {message : Message}
    {rest : List Message} (running : system.stage = .running deadline)
    (oldest : system.inbox = message :: rest) :
    Told config batches (Loop.receive { system with inbox := rest } message) := by
  refine told.next (.message system.now message) system.environment (running.trans_ne nofun)
    running rfl ?_
  rw [pending, oldest]
  cases message with
  | telemetry | moveDone => rfl

/-- Where an epoch ends, the batches that wait go on waiting. -/
theorem Told.boundary (told : Told config batches system) {deadline : Nat}
    (running : system.stage = .running deadline) :
    Told config batches (Loop.boundary system deadline) :=
  told.next (.epoch system.now) system.environment (running.trans_ne nofun) rfl rfl rfl

theorem Told.stop (told : Told config batches system) {deadline : Nat}
    (running : system.stage = .running deadline) (drained : system.inbox = [])
    (closed : system.connected = false) : Told config batches (Loop.stop system) := by
  obtain ⟨occasions, follows, brought⟩ := told.heard
  have same := follows.of_running running
  exact ⟨⟨occasions, congrArg Controller.stop same, brought⟩, nofun, fun _ => ⟨drained, closed⟩⟩

/-- What happens to a system takes no batch away that is yet to be heard, and puts none before
those that wait. -/
theorem Told.turn (told : Told config batches first) (turn : Turn first batch? last) :
    Told config (batches ++ batch?.toList) last := by
  cases turn with
  | sent batch connected =>
    obtain ⟨occasions, follows, brought⟩ := told.heard
    refine ⟨⟨occasions, follows, ?_⟩, told.asks, fun stopped => ?_⟩
    · rw [pending_enqueue, ← List.append_assoc, brought]
      rfl
    · cases (told.drained stopped).2.symm.trans connected
  | copied => simpa only [Option.toList_none, List.append_nil] using told.endCopy _
  | polled waiting => simpa only [Option.toList_none, List.append_nil] using told.poll waiting
  | taken running oldest =>
    simpa only [Option.toList_none, List.append_nil] using told.receive running oldest
  | boundary running =>
    simpa only [Option.toList_none, List.append_nil] using told.boundary running
  | disconnected =>
    rw [Option.toList_none, List.append_nil]
    exact { told with drained := fun stopped => ⟨(told.drained stopped).1, rfl⟩ }
  | stopped running drained closed =>
    simpa only [Option.toList_none, List.append_nil] using told.stop running drained closed
  | elapsed =>
    rw [Option.toList_none, List.append_nil]
    exact { told with }

theorem told_of_turns {layout : Layout} {copyDelay now : Nat}
    (turns : Turns (start config layout copyDelay now) batches system) :
    Told config batches system := by
  induction turns with
  | refl => exact told_start config layout copyDelay now
  | tail _ turn ih => exact ih.turn turn

theorem Told.counted (told : Told config batches system) :
    system.controller.metrics.telemetryRecords + system.pending.flatten.length =
      batches.flatten.length := by
  obtain ⟨occasions, follows, rfl⟩ := told.heard
  have heard := (Controller.new config).telemetryRecords_following occasions
  have same : system.controller.metrics.telemetryRecords =
      ((Controller.new config).following occasions).metrics.telemetryRecords := by
    rw [follows]
    split
    · rfl
    · rfl
  rw [same, heard, List.flatten_append, List.length_append]
  exact congrArg (· + _) (Nat.zero_add _)

theorem Told.pending_eq_nil (told : Told config batches system)
    (stopped : system.stage = .stopped) : system.pending = [] := by
  rw [pending, (told.drained stopped).1]
  rfl

theorem Told.counts (told : Told config batches system) (stopped : system.stage = .stopped) :
    system.controller.metrics.telemetryRecords = batches.flatten.length := by
  have counted := told.counted
  rwa [told.pending_eq_nil stopped] at counted

end System

theorem Config.epochLength_ne_zero_of_validate {α : Type} [Scalar α] {config : Config α}
    (valid : config.validate = .ok ()) : config.epochLength ≠ 0 := (of_check valid).1

def Setup.system {α : Type} [Scalar α] (setup : Setup α) (now : Nat) : System α :=
  System.start setup.config setup.layout setup.copyDelay now

/-- A summary of a system that went from its start to its stop while just these batches were
sent to it. -/
structure Summary.Tells {α : Type} [Scalar α] (setup : Setup α) (now : Nat)
    (batches : List (List Record)) (summary : Summary α) : Prop where
  sent : summary.recordsSent = batches.flatten.length
  ended : ∃ system, System.Turns (setup.system now) batches system ∧ system.stage = .stopped ∧
    summary.metrics = system.controller.metrics

theorem Summary.Tells.counted {α : Type} [Scalar α] {setup : Setup α} {now : Nat}
    {batches : List (List Record)} {summary : Summary α} (tells : summary.Tells setup now batches) :
    summary.metrics.telemetryRecords = summary.recordsSent := by
  obtain ⟨system, turns, stopped, metrics⟩ := tells.ended
  rw [metrics, (System.told_of_turns turns).counts stopped, tells.sent]

namespace Simulation

variable {α : Type} [Scalar α] {setup : Setup α} {now : Nat} {before : List (List Record)}

/-- A feed that went on from its start while just these batches were sent, and can send more. -/
structure Feed.HasSent (setup : Setup α) (now : Nat) (batches : List (List Record))
    (feed : Feed α) : Prop where
  turns : System.Turns (setup.system now) batches feed.system
  connected : feed.system.connected = true
  counted : feed.sent = batches.flatten.length
  lasting : setup.config.epochLength ≠ 0

namespace Feed

variable {feed : Feed α}

theorem HasSent.advance (sent : feed.HasSent setup now before) (target : Nat) :
    (feed.advance target).HasSent setup now before where
  turns := by
    have longer := sent.turns.trans (feed.system.turns_advance target)
    rwa [List.append_nil] at longer
  connected := (feed.system.connected_advance target).trans sent.connected
  counted := sent.counted
  lasting := sent.lasting

theorem HasSent.isSteady (sent : feed.HasSent setup now before) :
    feed.system.IsSteady setup.layout.topology.sites.size :=
  (System.isSteady_start sent.lasting setup.layout setup.copyDelay now).turns sent.turns

theorem HasSent.sendBatch (sent : feed.HasSent setup now before) (batch : List Record) :
    (feed.sendBatch batch).HasSent setup now (before ++ [batch]) where
  turns := sent.turns.trans (System.turns_send sent.connected batch)
  connected := (feed.system.connected_send _).trans sent.connected
  counted := by
    rw [Feed.sendBatch, sent.counted, List.flatten_append, List.flatten_singleton,
      List.length_append]
  lasting := sent.lasting

theorem HasSent.sendBatches (sent : feed.HasSent setup now before)
    (parts : List (List Record)) :
    (parts.foldl Feed.sendBatch feed).HasSent setup now (before ++ parts) := by
  induction parts generalizing feed before with
  | nil => rwa [List.append_nil]
  | cons part parts ih =>
    have later := ih (sent.sendBatch part)
    rwa [List.append_assoc] at later

theorem HasSent.send (sent : feed.HasSent setup now before) (records : List Record) :
    (feed.send records).HasSent setup now (before ++ emitted records) := by
  unfold Feed.send emitted
  split
  · exact sent.sendBatch []
  · exact sent.sendBatches (batches records)

theorem hasSent_start (started : start setup now = .ok feed) : feed.HasSent setup now [] := by
  unfold Feed.start at started
  obtain ⟨_, _, rest⟩ := exists_of_bind started
  obtain ⟨_, valid, rest⟩ := exists_of_bind rest
  cases rest
  exact ⟨.refl, rfl, rfl, Config.epochLength_ne_zero_of_validate (of_mapError valid)⟩

/-- When nobody sends any more, what waits is heard and the controller stops. -/
theorem HasSent.tells (sent : feed.HasSent setup now before) :
    feed.finish.Tells setup now before where
  sent := sent.counted
  ended := by
    have closes := sent.turns.trans feed.system.turns_close
    rw [List.append_nil] at closes
    exact ⟨feed.system.close, closes, System.stage_close sent.isSteady, rfl⟩

end Feed

theorem emitted_of_batch {records batch : List Record} (listed : batch ∈ batches records) :
    emitted batch = [batch] := by
  obtain ⟨filled, short⟩ := (isDivided_batches records).filled batch listed
  rw [emitted_of_ne_nil (List.ne_nil_of_length_pos filled), batches_of_short filled short]

theorem Feed.HasSent.replay {feed : Feed α} (sent : feed.HasSent setup now before)
    (interval : Nat) {parts : List (List Record)} (whole : ∀ part ∈ parts, emitted part = [part]) :
    (parts.foldl (replayBatch interval) feed).HasSent setup now (before ++ parts) := by
  induction parts generalizing feed before with
  | nil => rwa [List.append_nil]
  | cons part parts ih =>
    obtain ⟨first, others⟩ := List.forall_mem_cons.1 whole
    have went := sent.send part
    rw [first] at went
    have later := ih (went.advance ((feed.send part).system.now + interval)) others
    rwa [List.append_assoc] at later

theorem hasSent_ticks {σ : Type} [RandomSource σ] {state final : Feed α × Generator σ}
    {start tick txns count index : Nat} (sent : state.1.HasSent setup now before)
    (ran : ticks start tick txns count index state = .ok final) :
    ∃ made : List (List Record), made.length = count ∧
      final.1.HasSent setup now (before ++ made.flatMap emitted) := by
  induction count generalizing state before index with
  | zero =>
    cases ran
    refine ⟨[], rfl, ?_⟩
    rw [List.flatMap_nil, List.append_nil]
    exact sent.advance _
  | succ count ih =>
    obtain ⟨ticked, tickedOnce, rest⟩ := exists_of_bind ran
    obtain ⟨⟨records, generator⟩, _, made⟩ := exists_of_bind tickedOnce
    cases made
    have went := (sent.advance (start + index * tick)).send records
    obtain ⟨others, number, later⟩ := ih went rest
    refine ⟨records :: others, congrArg (· + 1) number, ?_⟩
    rw [List.flatMap_cons, ← List.append_assoc]
    exact later

theorem tells_of_replay {records : List Record} {interval settle : Nat} {summary : Summary α}
    (ran : replay setup records interval settle now = .ok summary) :
    summary.Tells setup now (batches records) := by
  unfold replay at ran
  obtain ⟨feed, started, rest⟩ := exists_of_bind ran
  cases rest
  have whole : ∀ part ∈ batches records, emitted part = [part] := fun _ => emitted_of_batch
  have fed := (Feed.hasSent_start started).replay interval whole
  exact (fed.advance _).tells

theorem tells_of_generate {σ : Type} [RandomSource σ] {traffic : Traffic σ}
    {summary : Summary α} (ran : generate setup traffic now = .ok summary) :
    ∃ made : List (List Record),
      made.length = (traffic.duration + traffic.tick - 1) / traffic.tick ∧
        summary.Tells setup now (made.flatMap emitted) := by
  unfold generate at ran
  split at ran
  · cases ran
  · obtain ⟨_, _, rest⟩ := exists_of_bind ran
    obtain ⟨feed, started, rest⟩ := exists_of_bind rest
    obtain ⟨⟨fed, generator⟩, ticked, rest⟩ := exists_of_bind rest
    cases rest
    let first := (feed, Generator.new traffic.profile traffic.source)
    have fresh : first.1.HasSent setup now [] := Feed.hasSent_start started
    obtain ⟨made, number, sent⟩ := hasSent_ticks fresh (of_mapError ticked)
    exact ⟨made, number, sent.tells⟩

/-- Records are sent in full batches and what is left, or as one empty batch if there are none.
Whatever happens to a system while batches are sent to it, and in whatever order, its controller
hears the batches as they were sent; the records of those that wait are still to be counted, and
where it has stopped none waits. A feed that lets time pass sends nothing, and whatever falls due
until then happens. Every run that gives a summary is such a system that has stopped, so it counts
just the records that were sent. A recorded workload is sent as its records would be, except that
nothing is sent for an empty one. -/
theorem telemetry_delivered (setup : Setup α) (now : Nat) :
    (∀ records : List Record, (records = [] → emitted records = [[]]) ∧
      (records ≠ [] → IsDivided maxBatchRecords records (emitted records))) ∧
    (∀ (before : List (List Record)) (system : System α),
      System.Turns (setup.system now) before system →
        system.Told setup.config before ∧
          system.controller.metrics.telemetryRecords + system.pending.flatten.length =
            before.flatten.length ∧
          (system.stage = .stopped → system.pending = [] ∧
            system.controller.metrics.telemetryRecords = before.flatten.length)) ∧
    (∀ (before : List (List Record)) (feed : Feed α), feed.HasSent setup now before →
      (∀ records, (feed.send records).HasSent setup now (before ++ emitted records)) ∧
        ∀ target, (feed.advance target).HasSent setup now before ∧
          ∀ due, (feed.advance target).system.due? = some due → target ≤ due) ∧
    (∀ {σ : Type} [RandomSource σ] (traffic : Traffic σ) (summary : Summary α),
      generate setup traffic now = .ok summary →
        (∃ made : List (List Record),
          made.length = (traffic.duration + traffic.tick - 1) / traffic.tick ∧
            summary.Tells setup now (made.flatMap emitted)) ∧
          summary.metrics.telemetryRecords = summary.recordsSent) ∧
    ∀ (records : List Record) (interval settle : Nat) (summary : Summary α),
      replay setup records interval settle now = .ok summary →
        summary.Tells setup now (if records = [] then [] else emitted records) ∧
          summary.recordsSent = records.length ∧
            summary.metrics.telemetryRecords = summary.recordsSent := by
  refine ⟨fun records => ⟨?_, ?_⟩, ?_, ?_, ?_, ?_⟩
  · rintro rfl
    rfl
  · intro some
    rw [emitted_of_ne_nil some]
    exact isDivided_batches records
  · intro before system turns
    have told := System.told_of_turns turns
    exact ⟨told, told.counted, fun stopped => ⟨told.pending_eq_nil stopped, told.counts stopped⟩⟩
  · exact fun before feed sent => ⟨sent.send, fun target =>
      ⟨sent.advance target, System.le_due_advance sent.isSteady target⟩⟩
  · intro σ _ traffic summary ran
    obtain ⟨made, number, tells⟩ := tells_of_generate ran
    exact ⟨⟨made, number, tells⟩, tells.counted⟩
  · intro records interval settle summary ran
    have tells := tells_of_replay ran
    have whole : summary.recordsSent = records.length := by
      rw [tells.sent, (isDivided_batches records).whole]
    refine ⟨?_, whole, tells.counted⟩
    split
    · next none =>
      rw [none] at tells
      exact tells
    · next some =>
      rwa [emitted_of_ne_nil some]

/-- A batch waits where an epoch ends, and with it another one where nobody sends any more. A
generated workload of two ticks; and 101 records, all of which wait until the end. -/
theorem telemetry_delivered_twice :
    let setup : Setup ℚ :=
      { layout := { hosts := 2, partitionsPerHost := 1, spareSites := 1 }, copyDelay := 3
        config := .standard }
    let look : Procedure :=
      { name := "look", weight := 1, partitions := [101], isSingle := true, initiator := .follow
        baseLatency := 5 }
    let traffic : Traffic Xoshiro :=
      { profile := { procedures := [look], networkLatency := 1, jitter := 0 }
        source := .ofSeed 1, duration := 15, tick := 10, txnsPerTick := 2 }
    let records : List Record := List.replicate 101
      { txnId := 1, procedure := "look", isSingle := true, partition := some 101
        initiatorHost := 200, initiatorSite := 3, coordinatorSite := 1, latency := 9
        messages := [] }
    let batches := [records.take 100, records.drop 100]
    let waiting : System ℚ :=
      Loop.enqueue (Loop.poll (setup.system 0)) (.telemetry (records.take 100))
    let ended : System ℚ := Loop.boundary (waiting.setClock Config.second) Config.second
    let sent : System ℚ := Loop.enqueue ended (.telemetry (records.drop 100))
    (System.Turns (setup.system 0) batches (Loop.disconnect sent) ∧
      ended.pending = [records.take 100] ∧ ended.controller.epoch = 1 ∧
      sent.pending = batches ∧ sent.controller.metrics.telemetryRecords = 0 ∧
      sent.close.stage = .stopped ∧ sent.close.pending = [] ∧
      sent.close.controller.metrics.telemetryRecords = 101) ∧
    (∃ feed, Feed.start setup 0 = .ok feed ∧
      (feed.send records).HasSent setup 0 batches) ∧
    (∃ summary, generate setup traffic 0 = .ok summary ∧
      (∃ made : List (List Record), made.length = 2 ∧
        summary.Tells setup 0 (made.flatMap emitted)) ∧
        summary.recordsSent = 4 ∧ summary.metrics.telemetryRecords = 4) ∧
    ∃ summary, replay setup records 0 0 0 = .ok summary ∧ summary.Tells setup 0 batches ∧
      summary.recordsSent = 101 ∧ summary.metrics.telemetryRecords = 101 := by
  intro setup look traffic records batches waiting ended sent
  obtain ⟨_, delivers, sends, generates, replays⟩ := telemetry_delivered setup 0
  have parted : emitted records = batches := by decide +kernel
  have started : Feed.start setup 0 = .ok _ := rfl
  have fresh := Feed.hasSent_start started
  have many : (generate setup traffic 0).toOption.map (·.recordsSent) = some 4 := by
    decide +kernel
  obtain ⟨summary, ran, number⟩ := Option.map_eq_some_iff.1 many
  refine ⟨?_, ⟨_, started, ?_⟩, ⟨summary, of_toOption ran, ?_⟩, ⟨_, rfl, ?_⟩⟩
  · have polled : System.Turns (setup.system 0) [] (Loop.poll (setup.system 0)) :=
      System.Turns.refl.quiet (.polled rfl)
    have arrived := (polled.tail (.sent (records.take 100) rfl)).quiet
      (.elapsed (Nat.zero_le Config.second))
    have passed : (waiting.setClock Config.second).stage = .running Config.second := by decide
    have waits : System.Turns (setup.system 0) batches sent :=
      (arrived.quiet (.boundary passed)).tail (.sent (records.drop 100) rfl)
    have closes : System.Turns (setup.system 0) (batches ++ []) sent.close :=
      waits.trans sent.turns_close
    have stops : sent.close.stage = .stopped :=
      System.stage_close
        ((System.isSteady_start fresh.lasting setup.layout setup.copyDelay 0).turns waits)
    have keeps : sent.pending = batches := rfl
    obtain ⟨_, _, drained⟩ := delivers _ sent.close closes
    obtain ⟨none, counted⟩ := drained stops
    have whole : (batches ++ []).flatten.length = 101 := by decide +kernel
    exact ⟨waits.quiet .disconnected, rfl, rfl, keeps, rfl, stops, none, counted.trans whole⟩
  · rw [← parted]
    exact (sends [] _ fresh).1 records
  · obtain ⟨⟨made, count, tells⟩, counted⟩ := generates traffic summary (of_toOption ran)
    exact ⟨⟨made, count.trans (by decide), tells⟩, number, counted.trans number⟩
  · obtain ⟨tells, whole, counted⟩ := replays records 0 0 _ rfl
    exact ⟨parted ▸ tells, whole, counted.trans whole⟩

end Simulation

end Rebalance
