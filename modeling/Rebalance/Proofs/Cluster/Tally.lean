import Rebalance.Proofs.Cluster.Closed
import Rebalance.Proofs.Cluster.Counters
import Rebalance.Proofs.Controller.Accounting

/-!
The counters of the controller beside those of its cluster. Copies end, and acknowledgements
arrive or are lost, in any order, also those of runs that were given up.
-/

namespace Rebalance

structure Tally where
  /-- The moves with which the run that is under way was launched. -/
  underWay : Nat := 0
  /-- The moves of the runs that were completed. -/
  completed : Nat := 0

namespace Tally

def note (tally : Tally) (entry : Entry) : Tally where
  underWay := if entry.after.isMigrating then tally.underWay + entry.dispatched else 0
  completed := if entry.finishes then tally.completed + tally.underWay else tally.completed

def ofLog (log : List Entry) : Tally := log.foldl note {}

theorem completed_note (tally : Tally) (entry : Entry) :
    (tally.note entry).completed =
      tally.completed + if entry.finishes then tally.underWay else 0 := by
  unfold note
  simp only
  split
  · rfl
  · rfl

end Tally

namespace ControllerState

def acknowledged : ControllerState → Nat
  | migrating run _ _ => run.completed.length
  | _ => 0

def Carries (topology : Topology) (count : Nat) : ControllerState → Prop
  | migrating run _ _ => run.IsSourced topology ∧ run.moves.length = count
  | _ => count = 0

theorem Carries.congr {state : ControllerState} {topology after : Topology} {count : Nat}
    (carries : state.Carries topology count)
    (hosts : ∀ site, after.hostOfSite site = topology.hostOfSite site) :
    state.Carries after count := by
  cases state with
  | startupWait | collecting => exact carries
  | migrating => exact ⟨carries.1.congr (.refl _) hosts, carries.2⟩

end ControllerState

open InterleavedCluster

/-- What one event comes to for the cluster and for the run that is under way. -/
structure Turnover (tally : Tally) (entry : Entry) (before after : InterleavedCluster) : Prop where
  becomes : Becomes before entry.dispatched (if entry.finishes then tally.underWay else 0) after
  carries : entry.after.Carries after.cluster.topology (tally.note entry).underWay
  acked : entry.after.acknowledged + (if entry.finishes then tally.underWay else 0) ≤
    entry.before.acknowledged + entry.accepts.toNat

section
variable {tally : Tally} {before after : ControllerState} {environment final : InterleavedCluster}

theorem turnover_quiet (carries : before.Carries environment.cluster.topology tally.underWay)
    (event : Event) (requests : List Request) :
    Turnover tally ⟨event, before, requests, before⟩ environment environment := by
  cases before with
  | startupWait | collecting => exact ⟨.refl environment, rfl, Nat.zero_le _⟩
  | migrating run ignoreAfter lastProgress =>
    exact ⟨.refl environment, carries, Nat.le_add_right ..⟩

theorem Run.length_moves (run : Run) :
    run.moves.length = run.outstanding.size + run.completed.length := by
  rw [Run.moves, List.length_append, IdMap.length_values]

theorem turnover_ack (carries : before.Carries environment.cluster.topology tally.underWay)
    {now : Nat} {site : SiteId}
    (ended : Controller.AckEnd now site environment before after final)
    (requests : List Request) :
    Turnover tally ⟨.message now (.moveDone site), before, requests, after⟩ environment final := by
  cases ended with
  | ignored => exact turnover_quiet carries ..
  | @progress run move ignoreAfter lastProgress known more =>
    obtain ⟨sourced, counted⟩ := carries
    have same := Run.moves_acknowledged_perm known
    have accepts := ControllerState.accepts_of_known known ignoreAfter lastProgress now
    refine ⟨.refl environment, ⟨sourced.congr same fun _ => rfl, same.length_eq.trans counted⟩, ?_⟩
    rw [Entry.accepts, accepts]
    exact (List.length_append ..).le
  | @complete run move ignoreAfter lastProgress known last =>
    obtain ⟨sourced, counted⟩ := carries
    have same := Run.moves_acknowledged_perm known
    have accepts := ControllerState.accepts_of_known known ignoreAfter lastProgress now
    have done := sourced.congr same fun _ => rfl
    have finished : (run.acknowledged move site).completed.length = tally.underWay := by
      have moves := (run.acknowledged move site).length_moves
      rw [Run.size_eq_zero_of_isComplete last, Nat.zero_add, same.length_eq, counted] at moves
      exact moves.symm
    have retired := becomes_retireSources fun _ => done.hostOfSite_of_mem
    rw [done.length_sources, finished] at retired
    refine ⟨retired, rfl, ?_⟩
    rw [Entry.accepts, accepts]
    change 0 + tally.underWay ≤ run.completed.length + 1
    rw [← finished, Nat.zero_add]
    exact (List.length_append ..).le

theorem turnover_launch (keyed : environment.cluster.topology.IsKeyed)
    (idle : tally.underWay = 0) {topology : Topology}
    (seen : (Environment.snapshot environment).1 = some topology) (current target : Placement)
    (now ignoreAfter : Nat) (requests : List Request) :
    let launched := Run.dispatch {} (Plan.make current target topology).moves
      (Environment.snapshot environment).2
    Turnover tally ⟨.epoch now, .collecting 0, requests,
      if launched.1.outstanding.size = 0 then .collecting 0
      else .migrating launched.1 ignoreAfter now⟩ environment launched.2 := by
  intro launched
  obtain rfl : (Environment.snapshot environment).2.cluster.topology = topology :=
    Option.some.inj seen
  have asked := becomes_snapshot environment
  have joint := Plan.isJoint_make (Topology.isKeyed_of_address? asked.addresses keyed)
    current target
  have taken := joint.sublist (Run.accepted_sublist _ (Environment.snapshot environment).2)
  have fresh : launched.1.completed = [] := Run.completed_dispatch ..
  have same : launched.1.moves.Perm _ :=
    (Run.books_dispatch joint.targets _).moves_perm fresh (Run.nodup_accepted joint.targets _)
  have counted := launched.1.length_moves
  rw [fresh, List.length_nil, Nat.add_zero] at counted
  have dispatched : Becomes (Environment.snapshot environment).2 _ 0 launched.2 :=
    becomes_dispatch ..
  rw [← same.length_eq, counted] at dispatched
  have becomes := asked.trans dispatched
  rw [Nat.zero_add] at becomes
  split
  · next none =>
    rw [none] at becomes
    exact ⟨becomes, rfl, Nat.zero_le _⟩
  · have sourced := (Run.isSourced_of_isJoint taken same).congr (.refl _)
      (Topology.hostOfSite_of_address? dispatched.addresses)
    refine ⟨becomes, ⟨sourced, ?_⟩, ?_⟩
    · change _ = tally.underWay + launched.1.outstanding.size
      rw [counted, idle, Nat.zero_add]
    · change launched.1.completed.length + 0 ≤ 0
      rw [fresh]
      rfl

theorem turnover_epoch {α : Type} [Scalar α] {config : Config α}
    (keyed : environment.cluster.topology.IsKeyed)
    (carries : before.Carries environment.cluster.topology tally.underWay) {now : Nat}
    (ended : Controller.EpochEnd config now environment before after final)
    (requests : List Request) :
    Turnover tally ⟨.epoch now, before, requests, after⟩ environment final := by
  cases ended with
  | waiting | running => exact turnover_quiet carries ..
  | ignored => exact ⟨.refl environment, rfl, Nat.zero_le _⟩
  | stayed =>
    exact ⟨becomes_snapshot environment, rfl, Nat.zero_le _⟩
  | planned seen solved ran =>
    subst ran
    exact turnover_launch keyed carries seen _ _ now _ requests
  | abandoned => exact ⟨.refl environment, rfl, Nat.zero_le _⟩

end

namespace Closed

variable {α : Type} {closed : Closed α}

/-- What a closed system can tell its controller at some moment. -/
inductive Offers (closed : Closed α) : Occasion InterleavedCluster → Prop where
  | ready (now : Nat) : Offers closed ⟨.ready now, closed.2⟩
  | telemetry (now : Nat) (batch : List Record) :
      Offers closed ⟨.message now (.telemetry batch), closed.2⟩
  | epoch (now : Nat) (schedule : List (List Nat)) :
      Offers closed ⟨.epoch now, { closed.2 with schedule }⟩
  | acknowledged {index : Nat} {move : Move} (now : Nat) (schedule : List (List Nat))
      (sent : closed.2.acks[index]? = some move) :
      Offers closed ⟨.message now (.moveDone move.targetSite),
        { closed.2 with acks := closed.2.acks.eraseIdx index, schedule }⟩

/-- What is offered does not differ from the cluster but in the acknowledgement that it takes. -/
theorem Offers.environment {occasion : Occasion InterleavedCluster}
    (offered : closed.Offers occasion) :
    occasion.environment.cluster = closed.2.cluster ∧
      occasion.environment.acks.length + occasion.event.acked?.toList.length =
        closed.2.acks.length := by
  cases offered with
  | ready | telemetry | epoch => exact ⟨rfl, rfl⟩
  | acknowledged now schedule sent => exact ⟨rfl, (perm_of_getElem? sent).length_eq⟩

/-- How the counters of the controller and of its cluster stand to each other. -/
structure Tallied (closed : Closed α) (tally : Tally) : Prop where
  keyed : closed.2.cluster.topology.IsKeyed
  carries : closed.1.state.Carries closed.2.cluster.topology tally.underWay
  started : closed.2.cluster.movesStarted = closed.1.metrics.movesDispatched
  copies : closed.2.cluster.movesFinished + closed.2.cluster.copies.length =
    closed.2.cluster.movesStarted
  acks : closed.1.metrics.movesAcked + closed.1.metrics.acksIgnored + closed.2.acks.length ≤
    closed.2.cluster.movesFinished
  failed : closed.2.cluster.sitesFailed = tally.completed
  acked : tally.completed + closed.1.state.acknowledged ≤ closed.1.metrics.movesAcked

/-- A copy that ends leaves the controller's counters alone. -/
theorem Tallied.endCopy {tally : Tally} (tallied : Tallied closed tally) (index : Nat) :
    Tallied (closed.1, closed.2.endCopy index) tally := by
  have becomes := becomes_endCopy closed.2 index
  have copies := becomes.copies
  have acks := becomes.acks
  refine ⟨?_, ?_, becomes.started.trans tallied.started, ?_, ?_,
    becomes.failed.trans tallied.failed, tallied.acked⟩
  · exact Topology.isKeyed_of_address? becomes.addresses tallied.keyed
  · exact tallied.carries.congr (Topology.hostOfSite_of_address? becomes.addresses)
  · have before := tallied.copies
    have started := becomes.started
    simp only
    omega
  · have before := tallied.acks
    simp only
    omega

theorem Tallied.lost {tally : Tally} (tallied : Tallied closed tally) (index : Nat) :
    Tallied (closed.1, { closed.2 with acks := closed.2.acks.eraseIdx index }) tally := by
  have fewer := closed.2.acks.length_eraseIdx_le index
  refine { tallied with acks := ?_ }
  exact Nat.le_trans (Nat.add_le_add_left fewer _) tallied.acks

variable [Scalar α]

def fresh (config : Config α) (hosts : List HostId) (sites : List Site) (copyDelay clock : Nat) :
    Closed α :=
  let topology := Topology.new hosts sites
  (Controller.new config,
    { cluster := { topology, copyDelay, clock }, shown := topology, passed := [topology] })

/-- The states of a closed system, each with the log of its controller. -/
inductive History (config : Config α) (hosts : List HostId) (sites : List Site)
    (copyDelay clock : Nat) : Closed α → List Entry → Prop where
  | start : History config hosts sites copyDelay clock (fresh config hosts sites copyDelay clock) []
  | copied {closed : Closed α} {log : List Entry}
      (history : History config hosts sites copyDelay clock closed log) (index : Nat) :
      History config hosts sites copyDelay clock (closed.1, closed.2.endCopy index) log
  /-- An acknowledgement finds the channel to the controller closed. -/
  | lost {closed : Closed α} {log : List Entry}
      (history : History config hosts sites copyDelay clock closed log) (index : Nat) :
      History config hosts sites copyDelay clock
        (closed.1, { closed.2 with acks := closed.2.acks.eraseIdx index }) log
  | handled {closed : Closed α} {log : List Entry} {occasion : Occasion InterleavedCluster}
      (history : History config hosts sites copyDelay clock closed log)
      (offered : closed.Offers occasion) :
      History config hosts sites copyDelay clock
        (closed.1.handle occasion.event occasion.environment) (log ++ [(closed.1.record occasion).2])

variable {config : Config α} {hosts : List HostId} {sites : List Site} {copyDelay clock : Nat}

/-- Every state that the closed system reaches from a layout has a log. -/
theorem exists_history {layout : Layout}
    (reachable : Reachable config layout copyDelay clock closed) :
    ∃ log, History config layout.hostIds layout.sites copyDelay clock closed log := by
  induction reachable with
  | refl => exact ⟨[], .start⟩
  | @tail before after _ step ih =>
    obtain ⟨log, history⟩ := ih
    cases step with
    | ready now waiting =>
      have begun : before.1.handle (.ready now) before.2 = (before.1.begin now, before.2) :=
        if_pos waiting
      exact ⟨_, begun ▸ history.handled (.ready now)⟩
    | telemetry now batch => exact ⟨_, history.handled (.telemetry now batch)⟩
    | epoch now schedule => exact ⟨_, history.handled (.epoch now schedule)⟩
    | copied index => exact ⟨_, history.copied index⟩
    | acknowledged now schedule sent => exact ⟨_, history.handled (.acknowledged now schedule sent)⟩

theorem Offers.turnover {tally : Tally} {occasion : Occasion InterleavedCluster}
    (offered : closed.Offers occasion) (keyed : closed.2.cluster.topology.IsKeyed)
    (carries : closed.1.state.Carries closed.2.cluster.topology tally.underWay) :
    Turnover tally (closed.1.record occasion).2 occasion.environment
      (closed.1.handle occasion.event occasion.environment).2 := by
  have unwatched :=
    closed.1.handle_watched occasion.event { inner := occasion.environment }
  change Turnover tally ⟨occasion.event, closed.1.state, _,
    (closed.1.handle occasion.event { inner := occasion.environment : Watched _ }).1.state⟩ _ _
  rw [unwatched]
  rw [← offered.environment.1] at keyed carries
  cases offered with
  | ready now =>
    simp only [Controller.handle]
    split
    · next waiting =>
      rw [waiting]
      exact ⟨.refl closed.2, rfl, Nat.zero_le _⟩
    · exact turnover_quiet carries ..
  | telemetry now batch =>
    simp only [Controller.handle, Controller.receive, Controller.state_receiveBatch]
    exact turnover_quiet carries ..
  | epoch now schedule =>
    exact turnover_epoch keyed carries (closed.1.epochEnd_closeEpoch now _) _
  | acknowledged now schedule sent =>
    exact turnover_ack carries (closed.1.ackEnd_receiveAck now _ _) _

theorem Tallied.handled {tally : Tally} {occasion : Occasion InterleavedCluster}
    (tallied : Tallied closed tally) (offered : closed.Offers occasion) :
    Tallied (closed.1.handle occasion.event occasion.environment)
      (tally.note (closed.1.record occasion).2) := by
  have turnover := offered.turnover tallied.keyed tallied.carries
  have counts := closed.1.counts_record occasion
  have told := (closed.1.record occasion).2.accepts_add_ignored
  have completed := tally.completed_note (closed.1.record occasion).2
  have unwatched : (closed.1.record occasion).1 =
      (closed.1.handle occasion.event occasion.environment).1 :=
    closed.1.handle_watched occasion.event { inner := occasion.environment }
  have reached : (closed.1.record occasion).2.after =
      (closed.1.handle occasion.event occasion.environment).1.state :=
    congrArg Controller.state unwatched
  have left : (closed.1.record occasion).2.before = closed.1.state := rfl
  have same : (closed.1.record occasion).2.event = occasion.event := rfl
  rw [unwatched] at counts
  generalize closed.1.handle occasion.event occasion.environment = after at *
  generalize (closed.1.record occasion).2 = entry at *
  obtain ⟨becomes, carries, acked⟩ := turnover
  obtain ⟨keyed, _, started, copies, acks, failed, ackedBefore⟩ := tallied
  obtain ⟨cluster, sent⟩ := offered.environment
  rw [reached] at carries acked
  rw [left] at acked
  have startedAfter := becomes.started
  have copiesAfter := becomes.copies
  have acksAfter := becomes.acks
  rw [cluster] at startedAfter copiesAfter acksAfter
  rw [← same] at sent
  constructor
  · exact Topology.isKeyed_of_address? becomes.addresses (cluster ▸ keyed)
  · exact carries
  · rw [startedAfter, counts.dispatched, started]
  · omega
  · rw [counts.acked, counts.ignored]
    omega
  · rw [becomes.failed, cluster, failed, completed]
  · rw [completed, counts.acked]
    omega

theorem History.tallied {log : List Entry}
    (history : History config hosts sites copyDelay clock closed log) :
    Tallied closed (Tally.ofLog log) := by
  induction history with
  | start =>
    exact ⟨Topology.isKeyed_new _ _, rfl, rfl, rfl, le_rfl, rfl, le_rfl⟩
  | copied _ index ih => exact ih.endCopy index
  | lost _ index ih => exact ih.lost index
  | handled _ offered ih =>
    rw [Tally.ofLog, List.foldl_concat]
    exact ih.handled offered

end Closed

/-- Whatever the order in which copies end and acknowledgements arrive, and with any timeout: the
cluster has started what the controller has dispatched, no more is acknowledged than has
finished, and as many sites have failed as the completed runs had moves. -/
theorem counters_agree {α : Type} [Scalar α] {config : Config α} {hosts : List HostId}
    {sites : List Site} {copyDelay clock : Nat} {closed : Closed α} {log : List Entry}
    (history : Closed.History config hosts sites copyDelay clock closed log) :
    closed.2.cluster.movesStarted = closed.1.metrics.movesDispatched ∧
      closed.1.metrics.movesAcked + closed.1.metrics.acksIgnored ≤ closed.2.cluster.movesFinished ∧
      closed.2.cluster.movesFinished ≤ closed.2.cluster.movesStarted ∧
      closed.2.cluster.sitesFailed ≤ closed.1.metrics.movesAcked ∧
      closed.2.cluster.sitesFailed = (Tally.ofLog log).completed := by
  have tallied := history.tallied
  have copies := tallied.copies
  have acks := tallied.acks
  have acked := tallied.acked
  have failed := tallied.failed
  exact ⟨tallied.started, by omega, by omega, by omega, failed⟩

/-- A run is given up, and the next one copies into the same site. The acknowledgement of the
first copy completes it, and that of the second is ignored. -/
theorem counters_agree_givenUp :
    let config : Config Float := { Config.standard with migrationTimeout := 1, settleEpochs := 0 }
    let sites : List Site := [⟨1, 100, some 101, true⟩, ⟨2, 200, none, false⟩]
    ∃ (closed : Closed Float) (log : List Entry),
      Closed.History config [100, 200] sites 5 0 closed log ∧
        closed.1.metrics.movesDispatched = 2 ∧ closed.1.metrics.acksIgnored = 1 ∧
        (Tally.ofLog log).completed = 1 ∧
        closed.2.cluster.movesStarted = closed.1.metrics.movesDispatched ∧
        closed.1.metrics.movesAcked + closed.1.metrics.acksIgnored ≤
          closed.2.cluster.movesFinished ∧
        closed.2.cluster.movesFinished ≤ closed.2.cluster.movesStarted ∧
        closed.2.cluster.sitesFailed ≤ closed.1.metrics.movesAcked ∧
        closed.2.cluster.sitesFailed = (Tally.ofLog log).completed := by
  intro config sites
  let record : Record :=
    { txnId := 1, procedure := "pay", isSingle := true, partition := some 101
      initiatorHost := 200, initiatorSite := 2, coordinatorSite := 1
      latency := 900, messages := [] }
  let move : Move := ⟨101, 100, 1, 200, 2⟩
  have launched : Closed.History config [100, 200] sites 5 0 _ _ :=
    ((Closed.History.start.handled (.ready 0)).handled (.telemetry 1 [record])).handled
      (.epoch 2 [])
  have relaunched :=
    ((launched.handled (.epoch 3 [])).handled (.telemetry 3 [record])).handled (.epoch 4 [])
  have copied := (relaunched.copied 0).copied 0
  have completed := copied.handled
    (.acknowledged 5 [] (show _[0]? = some move by decide +kernel))
  have ignored := completed.handled
    (.acknowledged 6 [] (show _[0]? = some move by decide +kernel))
  exact ⟨_, _, ignored, by decide +kernel, by decide +kernel, by decide +kernel,
    counters_agree ignored⟩

end Rebalance
