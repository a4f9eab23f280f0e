import Mathlib.Logic.Relation
import Rebalance.Proofs.Cluster.Interleaved
import Rebalance.Proofs.Controller.Transitions

/-!
Whose copy an acknowledgement speaks of. An acknowledgement names a site only, and a migration
may be given up while its copies go on, so each copy is traced to the decision that asked for
it. As long as no two copies or acknowledgements go to one site at a time, every
acknowledgement that counts comes from a copy of the run that counts it; where two do, a copy of
a run that was given up can complete a later one.
-/

namespace Rebalance

/-- A copy that was asked for on the `round`-th snapshot. -/
structure Flight where
  round : Nat
  move : Move
deriving DecidableEq, Inhabited

/-- A simulated cluster whose copies end at any moment, also between two requests of one run.
Its copies are told apart by the snapshot on which they were decided. -/
structure TracedCluster where
  cluster : SimulatedCluster
  /-- The copies under way. -/
  flights : List Flight := []
  tagged : flights.map Flight.move = cluster.copies.map Copy.move
  /-- The copies that have ended and whose acknowledgement is on its way. -/
  acks : List Flight := []
  /-- Every copy that has ended. -/
  landed : List Flight := []
  /-- How many snapshots were taken. -/
  round : Nat := 0
  /-- For each of the next requests, the copies that end before it, each by its place among
  those then under way. -/
  schedule : List (List Nat) := []

namespace TracedCluster

def new (topology : Topology) (copyDelay clock : Nat) : TracedCluster :=
  { cluster := { topology, copyDelay, clock }, tagged := rfl }

def endCopy (traced : TracedCluster) (index : Nat) : TracedCluster :=
  match traced.flights[index]? with
  | some flight =>
    let copies := traced.cluster.copies.eraseIdx index
    { traced with
      cluster := { traced.cluster with copies }.finish flight.move
      flights := traced.flights.eraseIdx index
      tagged := by
        change _ = (traced.cluster.copies.eraseIdx index).map Copy.move
        rw [← List.eraseIdx_map, ← List.eraseIdx_map, traced.tagged]
      acks := traced.acks ++ [flight]
      landed := traced.landed ++ [flight] }
  | none => traced

def turn (traced : TracedCluster) : TracedCluster :=
  match traced.schedule with
  | [] => traced
  | ends :: schedule => ends.foldl endCopy { traced with schedule }

theorem copies_of_startMove {cluster after : SimulatedCluster} {move : Move}
    (started : cluster.startMove move = .ok after) :
    after.copies.map Copy.move = cluster.copies.map Copy.move ++ [move] := by
  rw [SimulatedCluster.startMove_of_isFeasible
    (SimulatedCluster.isFeasible_of_startMove started)] at started
  cases started
  exact List.map_append

theorem copies_of_retire {cluster after : SimulatedCluster} {host : HostId} {site : SiteId}
    (retired : cluster.retire host site = .ok after) : after.copies = cluster.copies := by
  unfold SimulatedCluster.retire at retired
  split at retired
  · cases retired
  · split at retired
    · cases retired
    · cases retired
      rfl

def start (traced : TracedCluster) (move : Move) : Bool × TracedCluster :=
  match started : traced.cluster.startMove move with
  | .ok cluster =>
    (true,
      { traced with
        cluster
        flights := traced.flights ++ [{ round := traced.round, move }]
        tagged := by
          rw [copies_of_startMove started, ← traced.tagged]
          exact List.map_append })
  | .error _ => (false, traced)

def retire (traced : TracedCluster) (host : HostId) (site : SiteId) : Bool × TracedCluster :=
  match retired : traced.cluster.retire host site with
  | .ok cluster =>
    (true, { traced with cluster, tagged := by rw [copies_of_retire retired, traced.tagged] })
  | .error _ => (false, traced)

def observe (traced : TracedCluster) : Option Topology × TracedCluster :=
  (some traced.cluster.topology, { traced with round := traced.round + 1 })

instance : Environment TracedCluster where
  isReady traced := (traced.turn.cluster.ready, traced.turn)
  snapshot traced := traced.turn.observe
  startMove move traced := traced.turn.start move
  retireSite host site traced := traced.turn.retire host site

def Exclusive (traced : TracedCluster) : Prop :=
  ((traced.flights ++ traced.acks).map (·.move.targetSite)).Nodup

instance (traced : TracedCluster) : Decidable traced.Exclusive :=
  inferInstanceAs (Decidable (List.Nodup _))

/-- What the cluster may do while nobody takes a snapshot or an acknowledgement from it: copies
end and new ones begin. -/
structure Later (before after : TracedCluster) : Prop where
  round : after.round = before.round
  underWay : before.flights ++ before.acks ⊆ after.flights ++ after.acks
  landed : before.landed ⊆ after.landed
  acks : before.acks ⊆ before.landed → after.acks ⊆ after.landed

variable {traced before middle after : TracedCluster}

theorem Later.refl (traced : TracedCluster) : Later traced traced :=
  ⟨rfl, List.Subset.refl _, List.Subset.refl _, id⟩

theorem Later.trans (first : Later before middle) (second : Later middle after) :
    Later before after where
  round := second.round.trans first.round
  underWay := List.Subset.trans first.underWay second.underWay
  landed := List.Subset.trans first.landed second.landed
  acks := second.acks ∘ first.acks

theorem later_endCopy (traced : TracedCluster) (index : Nat) :
    Later traced (traced.endCopy index) := by
  unfold endCopy
  split
  · next flight found =>
    have split := InterleavedCluster.perm_of_getElem? found
    constructor
    · rfl
    · intro other member
      have same := split.mem_iff (a := other)
      simp only [List.mem_append, List.mem_cons, List.not_mem_nil, or_false] at member same ⊢
      grind
    · exact List.subset_append_left _ _
    · intro known other member
      rcases List.mem_append.1 member with old | new
      · exact List.mem_append_left _ (known old)
      · exact List.mem_append_right _ new
  · exact Later.refl traced

theorem later_turn (traced : TracedCluster) : Later traced traced.turn := by
  unfold turn
  split
  · exact Later.refl traced
  · next ends schedule _ =>
    have same : Later traced { traced with schedule } :=
      ⟨rfl, List.Subset.refl _, List.Subset.refl _, id⟩
    refine List.foldlRecOn (motive := fun after => Later traced after) ends _ same ?_
    intro after known index _
    exact known.trans (later_endCopy after index)

theorem later_start (traced : TracedCluster) (move : Move) :
    Later traced (traced.start move).2 ∧
      ((traced.start move).1 = true →
        { round := traced.round, move : Flight } ∈ (traced.start move).2.flights) := by
  unfold start
  split
  · refine ⟨⟨rfl, ?_, List.Subset.refl _, id⟩, fun _ => ?_⟩
    · intro flight member
      rcases List.mem_append.1 member with flying | sent
      · exact List.mem_append_left _ (List.mem_append_left _ flying)
      · exact List.mem_append_right _ sent
    · exact List.mem_append_right _ List.mem_cons_self
  · exact ⟨Later.refl traced, fun taken => nomatch taken⟩

theorem later_retire (traced : TracedCluster) (host : HostId) (site : SiteId) :
    Later traced (traced.retire host site).2 := by
  unfold retire
  split
  · exact ⟨rfl, List.Subset.refl _, List.Subset.refl _, id⟩
  · exact Later.refl traced

/-- Each outstanding move of a run has its own copy under way or acknowledged, and each
completed one has its own copy ended. -/
structure Follows (traced : TracedCluster) (run : Run) : Prop where
  outstanding : ∀ site move, run.outstanding.get? site = some move → move.targetSite = site ∧
    { round := traced.round, move : Flight } ∈ traced.flights ++ traced.acks
  completed : ∀ move ∈ run.completed, { round := traced.round, move : Flight } ∈ traced.landed

variable {run : Run}

theorem follows_empty (traced : TracedCluster) : traced.Follows {} :=
  ⟨fun _ _ found => (nomatch found), fun _ member => (nomatch member)⟩

theorem Follows.later (follows : before.Follows run) (later : Later before after) :
    after.Follows run where
  outstanding site move found := by
    obtain ⟨here, member⟩ := follows.outstanding site move found
    exact ⟨here, later.round ▸ later.underWay member⟩
  completed move member := later.round ▸ later.landed (follows.completed move member)

theorem Follows.dispatchMove (follows : traced.Follows run) (move : Move) :
    (Run.dispatchMove (run, traced) move).2.Follows (Run.dispatchMove (run, traced) move).1 ∧
      Later traced (Run.dispatchMove (run, traced) move).2 := by
  obtain ⟨started, flying⟩ := later_start traced.turn move
  have later := (later_turn traced).trans started
  have kept := follows.later later
  unfold Run.dispatchMove
  simp only [Environment.startMove]
  split
  · next taken =>
    refine ⟨⟨fun site other found => ?_, kept.completed⟩, later⟩
    rw [IdMap.get?_insert] at found
    split at found
    · next here =>
      cases found
      refine ⟨here.symm, List.mem_append_left _ ?_⟩
      rw [started.round]
      exact flying taken
    · exact kept.outstanding site other found
  · exact ⟨kept, later⟩

theorem Follows.dispatch (follows : traced.Follows run) (moves : List Move) :
    (Run.dispatch run moves traced).2.Follows (Run.dispatch run moves traced).1 ∧
      Later traced (Run.dispatch run moves traced).2 := by
  induction moves generalizing run traced with
  | nil => exact ⟨follows, Later.refl traced⟩
  | cons move moves ih =>
    obtain ⟨books, first⟩ := follows.dispatchMove move
    obtain ⟨done, rest⟩ := ih books
    exact ⟨done, first.trans rest⟩

theorem later_retireSources (run : Run) (traced : TracedCluster) :
    Later traced (run.retireSources traced).2 := by
  unfold Run.retireSources
  refine List.foldlRecOn (motive := fun state : Nat × TracedCluster => Later traced state.2)
    run.sources _ (Later.refl traced) ?_
  intro state known source _
  exact known.trans ((later_turn state.2).trans (later_retire state.2.turn source.1 source.2))

def delivered (traced : TracedCluster) (index : Nat) (schedule : List (List Nat)) :
    TracedCluster :=
  { traced with acks := traced.acks.eraseIdx index, schedule }

variable {index : Nat} {flight : Flight}

theorem Exclusive.eq_of_site (exclusive : traced.Exclusive)
    (sent : traced.acks[index]? = some flight) {other : Flight}
    (member : other ∈ traced.flights ++ traced.acks)
    (same : other.move.targetSite = flight.move.targetSite) : other = flight :=
  List.inj_on_of_nodup_map exclusive member
    (List.mem_append_right _ (List.mem_of_getElem? sent)) same

theorem mem_delivered (sent : traced.acks[index]? = some flight) (schedule : List (List Nat))
    {other : Flight} (member : other ∈ traced.flights ++ traced.acks) (differs : other ≠ flight) :
    other ∈ (traced.delivered index schedule).flights ++
      (traced.delivered index schedule).acks := by
  have split := (InterleavedCluster.perm_of_getElem? sent).mem_iff (a := other)
  rcases List.mem_append.1 member with flying | waiting
  · exact List.mem_append_left _ flying
  · rcases List.mem_cons.1 (split.2 waiting) with here | left
    · exact absurd here differs
    · exact List.mem_append_right _ left

theorem Follows.eq_of_known (follows : traced.Follows run) (exclusive : traced.Exclusive)
    (sent : traced.acks[index]? = some flight) {move : Move}
    (known : run.outstanding.get? flight.move.targetSite = some move) :
    flight = { round := traced.round, move } := by
  obtain ⟨here, member⟩ := follows.outstanding _ _ known
  exact (exclusive.eq_of_site sent member here).symm

theorem Follows.ignored (follows : traced.Follows run)
    (sent : traced.acks[index]? = some flight) (schedule : List (List Nat))
    (unknown : run.outstanding.get? flight.move.targetSite = none) :
    (traced.delivered index schedule).Follows run := by
  refine ⟨fun site move found => ?_, follows.completed⟩
  obtain ⟨here, member⟩ := follows.outstanding site move found
  refine ⟨here, mem_delivered sent schedule member ?_⟩
  rintro rfl
  rw [here, found] at unknown
  cases unknown

/-- With an acknowledgement that counts, the run has one more move of which the copy ended. -/
theorem Follows.acknowledged (follows : traced.Follows run) (exclusive : traced.Exclusive)
    (landed : traced.acks ⊆ traced.landed) (sent : traced.acks[index]? = some flight)
    (schedule : List (List Nat)) {move : Move}
    (known : run.outstanding.get? flight.move.targetSite = some move) :
    (traced.delivered index schedule).Follows
      (run.acknowledged move flight.move.targetSite) := by
  have own := follows.eq_of_known exclusive sent known
  constructor
  · intro site other found
    rw [Run.acknowledged, IdMap.get?_erase] at found
    split at found
    · cases found
    · next differs =>
      obtain ⟨here, member⟩ := follows.outstanding site other found
      refine ⟨here, mem_delivered sent schedule member ?_⟩
      rintro rfl
      exact differs here.symm
  · intro other member
    rcases List.mem_append.1 member with old | new
    · exact follows.completed other old
    · rw [List.mem_singleton.1 new]
      exact own ▸ landed (List.mem_of_getElem? sent)

end TracedCluster

abbrev Traced (α : Type) := Controller α × TracedCluster

namespace Traced

variable {α : Type}

/-- Every acknowledgement comes from a copy that has ended, and a run under way follows its
copies. -/
structure Attributed (state : ControllerState) (traced : TracedCluster) : Prop where
  landed : traced.acks ⊆ traced.landed
  follows : ∀ run ignoreAfter lastProgress, state = .migrating run ignoreAfter lastProgress →
    traced.Follows run

theorem Attributed.of_idle {state : ControllerState} {traced : TracedCluster}
    (idle : state.isMigrating = false) (landed : traced.acks ⊆ traced.landed) :
    Attributed state traced := by
  refine ⟨landed, fun run ignoreAfter lastProgress same => ?_⟩
  rw [same] at idle
  cases idle

theorem Attributed.later {state : ControllerState} {before after : TracedCluster}
    (known : Attributed state before) (later : before.Later after) : Attributed state after where
  landed := later.acks known.landed
  follows run ignoreAfter lastProgress same :=
    (known.follows run ignoreAfter lastProgress same).later later

theorem attributed_launch {traced : TracedCluster} (landed : traced.acks ⊆ traced.landed)
    (moves : List Move) (ignoreAfter now : Nat) :
    let launched := Run.dispatch {} moves traced
    Attributed
      (if launched.1.outstanding.size = 0 then .collecting 0
        else .migrating launched.1 ignoreAfter now) launched.2 := by
  intro launched
  obtain ⟨follows, later⟩ := traced.follows_empty.dispatch moves
  split
  · exact .of_idle rfl (later.acks landed)
  · refine ⟨later.acks landed, fun run _ _ same => ?_⟩
    cases same
    exact follows

theorem attributed_ack {controller : Controller α} {traced : TracedCluster}
    (known : Attributed controller.state traced) (exclusive : traced.Exclusive) {index : Nat}
    {flight : Flight} (now : Nat) (schedule : List (List Nat))
    (sent : traced.acks[index]? = some flight) :
    let after := controller.receiveAck now flight.move.targetSite (traced.delivered index schedule)
    Attributed after.1.state after.2 := by
  intro after
  have landed : (traced.delivered index schedule).acks ⊆ (traced.delivered index schedule).landed :=
    fun other member => known.landed (List.mem_of_mem_eraseIdx member)
  have ended := Controller.ackEnd_receiveAck controller now flight.move.targetSite
    (traced.delivered index schedule)
  change Controller.AckEnd _ _ _ controller.state after.1.state after.2 at ended
  generalize after.1.state = state at ended ⊢
  generalize after.2 = final at ended ⊢
  generalize controller.state = before at ended known
  cases ended with
  | ignored _ unknown =>
    refine ⟨landed, fun run ignoreAfter lastProgress same => ?_⟩
    have follows := known.follows run ignoreAfter lastProgress same
    exact follows.ignored sent schedule (unknown run ignoreAfter lastProgress same)
  | @progress run move ignoreAfter lastProgress counts more =>
    refine ⟨landed, fun other _ _ same => ?_⟩
    cases same
    have follows := known.follows run ignoreAfter lastProgress rfl
    exact follows.acknowledged exclusive known.landed sent schedule counts
  | complete counts last =>
    exact .of_idle rfl ((TracedCluster.later_retireSources _ _).acks landed)

variable [Scalar α]

def start (config : Config α) (topology : Topology) (copyDelay clock : Nat) : Traced α :=
  (Controller.new config, .new topology copyDelay clock)

/-- One event. Each acknowledgement is delivered once, but not always in the order of sending. -/
inductive Step : Traced α → Traced α → Prop where
  | ready {traced : Traced α} (now : Nat) (waiting : traced.1.state = .startupWait) :
      Step traced (traced.1.begin now, traced.2)
  | telemetry {traced : Traced α} (now : Nat) (batch : List Record) :
      Step traced (traced.1.receive now (.telemetry batch) traced.2)
  | epoch {traced : Traced α} (now : Nat) (schedule : List (List Nat)) :
      Step traced (traced.1.closeEpoch now { traced.2 with schedule })
  | copied {traced : Traced α} (index : Nat) : Step traced (traced.1, traced.2.endCopy index)
  | acknowledged {traced : Traced α} {index : Nat} {flight : Flight} (now : Nat)
      (schedule : List (List Nat)) (sent : traced.2.acks[index]? = some flight) :
      Step traced (traced.1.receive now (.moveDone flight.move.targetSite)
        (traced.2.delivered index schedule))

def ReachableExclusively (config : Config α) (topology : Topology) (copyDelay clock : Nat) :
    Traced α → Prop :=
  Relation.ReflTransGen (fun before after => Step before after ∧ after.2.Exclusive)
    (start config topology copyDelay clock)

theorem attributed_epoch {controller : Controller α} {traced : TracedCluster}
    (known : Attributed controller.state traced) (now : Nat) :
    Attributed (controller.closeEpoch now traced).1.state (controller.closeEpoch now traced).2 := by
  have ended := Controller.epochEnd_closeEpoch controller now traced
  have shown : (Environment.snapshot traced).2.acks ⊆ (Environment.snapshot traced).2.landed :=
    (TracedCluster.later_turn traced).acks known.landed
  generalize (controller.closeEpoch now traced).1.state = after at ended ⊢
  generalize (controller.closeEpoch now traced).2 = final at ended ⊢
  generalize controller.state = before at ended known
  cases ended with
  | waiting => exact known
  | ignored ignore => exact .of_idle rfl known.landed
  | stayed => exact .of_idle rfl shown
  | planned seen solved ran =>
    subst ran
    exact attributed_launch shown _ _ _
  | running run ignoreAfter lastProgress => exact known
  | abandoned run ignoreAfter lastProgress => exact .of_idle rfl known.landed

theorem Attributed.step {before after : Traced α} (known : Attributed before.1.state before.2)
    (exclusive : before.2.Exclusive) (step : Step before after) :
    Attributed after.1.state after.2 := by
  cases step with
  | ready now waiting => exact .of_idle rfl known.landed
  | telemetry now batch =>
    change Attributed (before.1.receiveBatch batch).state before.2
    rw [Controller.state_receiveBatch]
    exact known
  | epoch now schedule =>
    have rescheduled : before.2.Later { before.2 with schedule } :=
      ⟨rfl, List.Subset.refl _, List.Subset.refl _, id⟩
    exact attributed_epoch (known.later rescheduled) now
  | copied index => exact known.later (TracedCluster.later_endCopy before.2 index)
  | acknowledged now schedule sent => exact attributed_ack known exclusive now schedule sent

theorem attributed_of_reachable {config : Config α} {topology : Topology}
    {copyDelay clock : Nat} {traced : Traced α}
    (reachable : ReachableExclusively config topology copyDelay clock traced) :
    traced.2.Exclusive ∧ Attributed traced.1.state traced.2 := by
  induction reachable with
  | refl => exact ⟨List.nodup_nil, .of_idle rfl (List.nil_subset _)⟩
  | tail _ step ih => exact ⟨step.2, ih.2.step ih.1 step.1⟩

end Traced

def spareTopology : Topology := .new [100, 200] [⟨1, 100, some 101, true⟩, ⟨2, 200, none, false⟩]

def farRecord : Record :=
  { txnId := 1, procedure := "pay", isSingle := true, partition := some 101
    initiatorHost := 200, initiatorSite := 2, coordinatorSite := 1, latency := 900, messages := [] }

def hastyConfig : Config Float := { Config.standard with migrationTimeout := 1, settleEpochs := 0 }

/-- As long as no two copies or acknowledgements are of one site: an acknowledgement that counts
comes from the end of a copy that the same run asked for, and so do the sources that the run
then has to retire. While a controller migrates, the last snapshot is the one on which its run
was decided. -/
theorem acknowledge_own_copy {α : Type} [Scalar α] {config : Config α} {topology : Topology}
    {copyDelay clock : Nat} {traced : Traced α}
    (reachable : Traced.ReachableExclusively config topology copyDelay clock traced)
    {run : Run} {ignoreAfter lastProgress : Nat}
    (migrating : traced.1.state = .migrating run ignoreAfter lastProgress) {index : Nat}
    {flight : Flight} (sent : traced.2.acks[index]? = some flight)
    (counts : (run.acknowledge flight.move.targetSite).1 ≠ .ignored) :
    flight.round = traced.2.round ∧ flight ∈ traced.2.landed ∧
      ∀ host site, (host, site) ∈ (run.acknowledge flight.move.targetSite).2.sources →
        ∃ own ∈ traced.2.landed, own.round = traced.2.round ∧
          own.move.sourceHost = host ∧ own.move.sourceSite = site := by
  obtain ⟨exclusive, attributed⟩ := Traced.attributed_of_reachable reachable
  have follows := attributed.follows run ignoreAfter lastProgress migrating
  cases known : run.outstanding.get? flight.move.targetSite with
  | none => exact absurd (congrArg Prod.fst (Run.acknowledge_of_unknown known)) counts
  | some move =>
    have own := follows.eq_of_known exclusive sent known
    have after := follows.acknowledged exclusive attributed.landed sent traced.2.schedule known
    refine ⟨congrArg Flight.round own, attributed.landed (List.mem_of_getElem? sent), ?_⟩
    intro host site listed
    rw [Run.acknowledge_of_known known] at listed
    obtain ⟨done, member, here⟩ := Run.mem_sources.1 listed
    exact ⟨_, after.completed done member, rfl, here⟩

theorem acknowledge_own_copy_firstRun :
    let move : Move := ⟨101, 100, 1, 200, 2⟩
    let run : Run := { outstanding := IdMap.empty.insert 2 move }
    ∃ traced : Traced Float, Traced.ReachableExclusively hastyConfig spareTopology 5 0 traced ∧
      traced.1.state = .migrating run 0 2 ∧ traced.2.acks[0]? = some ⟨1, move⟩ ∧
        (run.acknowledge 2).1 ≠ .ignored ∧ 1 = traced.2.round ∧ ⟨1, move⟩ ∈ traced.2.landed ∧
          ∀ host site, (host, site) ∈ (run.acknowledge 2).2.sources →
            ∃ own ∈ traced.2.landed, own.round = traced.2.round ∧
              own.move.sourceHost = host ∧ own.move.sourceSite = site := by
  intro move run
  let first : Traced Float := Traced.start hastyConfig spareTopology 5 0
  let ready : Traced Float := (first.1.begin 0, first.2)
  let told : Traced Float := ready.1.receive 1 (.telemetry [farRecord]) ready.2
  let launched : Traced Float := told.1.closeEpoch 2 { told.2 with schedule := [] }
  let landed : Traced Float := (launched.1, launched.2.endCopy 0)
  have reachable : Traced.ReachableExclusively hastyConfig spareTopology 5 0 landed :=
    (((Relation.ReflTransGen.single
      ⟨(.ready 0 rfl : Traced.Step first ready), by decide +kernel⟩).tail
      ⟨(.telemetry 1 [farRecord] : Traced.Step ready told), by decide +kernel⟩).tail
      ⟨(.epoch 2 [] : Traced.Step told launched), by decide +kernel⟩).tail
      ⟨(.copied 0 : Traced.Step launched landed), by decide +kernel⟩
  have migrating : landed.1.state = .migrating run 0 2 := by decide +kernel
  have sent : landed.2.acks[0]? = some ⟨1, move⟩ := by decide +kernel
  have counts : (run.acknowledge 2).1 ≠ .ignored := by decide
  exact ⟨landed, reachable, migrating, sent, counts,
    acknowledge_own_copy reachable migrating sent counts⟩

/-- Two runs copy into one site, the first of them given up. Its late acknowledgement completes
the second run, whose own copy is still under way when its source is to be retired. -/
theorem late_acknowledgement_completes :
    let move : Move := ⟨101, 100, 1, 200, 2⟩
    ∃ (traced : Traced Float) (run : Run),
      Relation.ReflTransGen Traced.Step (Traced.start hastyConfig spareTopology 5 0) traced ∧
        traced.1.state = .migrating run 0 4 ∧ traced.2.round = 2 ∧
          traced.2.acks[0]? = some ⟨1, move⟩ ∧ (run.acknowledge move.targetSite).1 = .complete ∧
            (run.acknowledge move.targetSite).2.sources = [(100, 1)] ∧
              traced.2.landed = [⟨1, move⟩] ∧ traced.2.flights = [⟨2, move⟩] := by
  intro move
  let first : Traced Float := Traced.start hastyConfig spareTopology 5 0
  let ready : Traced Float := (first.1.begin 0, first.2)
  let told : Traced Float := ready.1.receive 1 (.telemetry [farRecord]) ready.2
  let launched : Traced Float := told.1.closeEpoch 2 { told.2 with schedule := [] }
  let abandoned : Traced Float := launched.1.closeEpoch 3 { launched.2 with schedule := [] }
  let toldAgain : Traced Float := abandoned.1.receive 3 (.telemetry [farRecord]) abandoned.2
  let relaunched : Traced Float := toldAgain.1.closeEpoch 4 { toldAgain.2 with schedule := [] }
  let landed : Traced Float := (relaunched.1, relaunched.2.endCopy 0)
  have path : Relation.ReflTransGen Traced.Step first landed :=
    ((((((Relation.ReflTransGen.single (.ready 0 rfl : Traced.Step first ready)).tail
      (.telemetry 1 [farRecord] : Traced.Step ready told)).tail
      (.epoch 2 [] : Traced.Step told launched)).tail
      (.epoch 3 [] : Traced.Step launched abandoned)).tail
      (.telemetry 3 [farRecord] : Traced.Step abandoned toldAgain)).tail
      (.epoch 4 [] : Traced.Step toldAgain relaunched)).tail
      (.copied 0 : Traced.Step relaunched landed)
  have migrating : landed.1.state =
      .migrating { outstanding := IdMap.empty.insert 2 move } 0 4 := by decide +kernel
  refine ⟨landed, _, path, migrating, ?_⟩
  decide +kernel

end Rebalance
