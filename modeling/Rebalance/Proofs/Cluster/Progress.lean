import Rebalance.Proofs.Cluster.Reservation
import Rebalance.Proofs.Cluster.Turns
import Rebalance.Proofs.Controller.Alike
import Rebalance.Proofs.Controller.Transitions

/-!
What a system has done once time has passed. Epochs take time, and each starts at most one copy
for each site, so only so much can happen before a given time, and all of it does. A system that
nobody sends to any more handles what waits and stops.
-/

namespace Rebalance

theorem Topology.length_le_of_known {topology : Topology} {ids : List SiteId}
    (distinct : ids.Nodup) (known : ∀ id ∈ ids, (topology.site? id).isSome = true) :
    ids.length ≤ topology.sites.size := by
  have listed : ids ⊆ topology.sites.keys.toList :=
    fun id member => IdMap.mem_keys.2 (known id member)
  have few := (distinct.subperm listed).length_le
  rwa [show topology.sites.keys.toList.length = topology.sites.size from List.length_map _] at few

theorem Topology.size_modifySite (topology : Topology) (site : SiteId) (f : Site → Site) :
    (topology.modifySite site f).sites.size = topology.sites.size := List.length_map _

namespace SimulatedCluster

def HasSites (size : Nat) (cluster : SimulatedCluster) : Prop :=
  cluster.ready = true ∧ cluster.topology.sites.size = size

theorem alike_hasSites (size : Nat) : Environment.Alike fun first second : SimulatedCluster =>
    first = second ∧ first.HasSites size where
  isReady known := by
    obtain ⟨rfl, has⟩ := known
    exact ⟨rfl, rfl, has⟩
  snapshot known := by
    obtain ⟨rfl, has⟩ := known
    exact ⟨rfl, rfl, has⟩
  startMove {cluster _} move known := by
    obtain ⟨rfl, ready, sites⟩ := known
    refine ⟨rfl, rfl, ?_⟩
    by_cases feasible : move.IsFeasible cluster.topology
    · rw [startMove_taken feasible]
      exact ⟨ready, (cluster.topology.size_modifySite ..).trans sites⟩
    · rw [startMove_refused feasible]
      exact ⟨ready, sites⟩
  retireSite {cluster _} host site known := by
    obtain ⟨rfl, ready, sites⟩ := known
    refine ⟨rfl, rfl, ?_⟩
    rcases cluster.retireSite_cases host site with same | retired
    · rw [same]
      exact ⟨ready, sites⟩
    · rw [retired]
      exact ⟨ready, (cluster.topology.size_modifySite ..).trans sites⟩

theorem HasSites.endCopy {cluster : SimulatedCluster} {size : Nat} (has : cluster.HasSites size)
    (copy : Copy) : (cluster.endCopy copy).HasSites size := by
  refine ⟨has.1, Eq.trans ?_ has.2⟩
  exact (Topology.size_modifySite ..).trans (Topology.size_modifySite ..)

/-- The copies that a dispatch starts are of moves that are handed over, in their order, and
into sites that there are. -/
theorem exists_started_dispatch (run : Run) (moves : List Move) (cluster : SimulatedCluster) :
    ∃ started : List Copy,
      (Run.dispatch run moves cluster).2.copies = cluster.copies ++ started ∧
        (started.map (·.move)).Sublist moves ∧
          ∀ copy ∈ started, (cluster.topology.site? copy.move.targetSite).isSome = true := by
  induction moves generalizing run cluster with
  | nil => exact ⟨[], (List.append_nil _).symm, .refl _, nofun⟩
  | cons move moves ih =>
    change ∃ started : List Copy,
      (Run.dispatch (Run.dispatchMove (run, cluster) move).1 moves
        (Run.dispatchMove (run, cluster) move).2).2.copies = _ ∧ _
    by_cases feasible : move.IsFeasible cluster.topology
    · have taken : (Run.dispatchMove (run, cluster) move).2 = cluster.reserved move := by
        unfold Run.dispatchMove
        simp only [startMove_taken feasible, if_true]
      rw [taken]
      obtain ⟨started, copies, ordered, known⟩ := ih _ (cluster.reserved move)
      refine ⟨⟨move, cluster.clock + cluster.copyDelay⟩ :: started, ?_, ordered.cons_cons _, ?_⟩
      · rw [copies]
        exact List.append_assoc ..
      · obtain ⟨target, here, _⟩ := feasible.target
        refine List.forall_mem_cons.2 ⟨by rw [here]; rfl, fun copy member => ?_⟩
        have still := known copy member
        change ((cluster.topology.assign move.targetSite move.partition).site? _).isSome = true
          at still
        rw [Topology.site?_assign] at still
        split at still
        · rwa [Option.isSome_map] at still
        · exact still
    · have refused : (Run.dispatchMove (run, cluster) move).2 = cluster := by
        unfold Run.dispatchMove
        simp only [startMove_refused feasible, Bool.false_eq_true, if_false]
      rw [refused]
      obtain ⟨started, copies, ordered, known⟩ := ih _ cluster
      exact ⟨started, copies, ordered.cons _, known⟩

theorem copies_closeEpoch {α : Type} [Scalar α] (controller : Controller α) (now : Nat)
    (cluster : SimulatedCluster) :
    (controller.closeEpoch now cluster).2.copies.length ≤
      cluster.copies.length + cluster.topology.sites.size := by
  have ended := controller.epochEnd_closeEpoch now cluster
  generalize controller.state = before at ended
  generalize (controller.closeEpoch now cluster).1.state = after at ended
  generalize (controller.closeEpoch now cluster).2 = final at ended ⊢
  cases ended with
  | waiting | ignored | stayed | running | abandoned => exact Nat.le_add_right ..
  | @planned topology _ candidate _ _ _ ran =>
    subst ran
    let moves := (Plan.make topology.placement candidate.placement topology).moves
    obtain ⟨started, copies, ordered, known⟩ := exists_started_dispatch {} moves cluster
    have distinct : ((started.map (·.move)).map (·.targetSite)).Nodup :=
      (Plan.claimed_make topology.placement candidate.placement topology).1.sublist
        (ordered.map _)
    have few := Topology.length_le_of_known distinct (by simpa using known)
    simp only [List.length_map] at few
    change (Run.dispatch {} moves cluster).2.copies.length ≤ _
    rw [copies, List.length_append]
    exact Nat.add_le_add_left few _

theorem copies_receive {α : Type} (controller : Controller α) (now : Nat) (message : Message)
    (cluster : SimulatedCluster) :
    (controller.receive now message cluster).2.copies = cluster.copies := by
  have retires (run : Run) : (run.retireSources cluster).2.copies = cluster.copies := by
    refine List.foldlRecOn (motive := fun state : Nat × SimulatedCluster =>
      state.2.copies = cluster.copies) run.sources _ rfl ?_
    intro state same source _
    rcases state.2.retireSite_cases source.1 source.2 with kept | retired
    · exact (congrArg copies kept).trans same
    · exact (congrArg copies retired).trans same
  cases message with
  | telemetry batch => rfl
  | moveDone site =>
    change (controller.receiveAck now site cluster).2.copies = cluster.copies
    unfold Controller.receiveAck
    split
    · split
      · rfl
      · rfl
      · exact retires _
    · rfl

end SimulatedCluster

namespace System

section
variable {α : Type} {system : System α} {size due limit : Nat}

/-- The cluster is ready, the controller is about to ask if it has not yet done so, and its
epochs take some time. -/
structure IsSteady (size : Nat) (system : System α) : Prop where
  sites : system.environment.HasSites size
  asks : ∀ nextPoll, system.stage = .waiting nextPoll → nextPoll ≤ system.now
  lasting : system.controller.config.epochLength ≠ 0

/-- Something is due no sooner than `limit` if neither the controller nor a copy is. -/
theorem le_due_iff : (∀ due, system.due? = some due → limit ≤ due) ↔
    (∀ due, Loop.due? system = some due → limit ≤ due) ∧
      ∀ copy, system.environment.nextCopy? = some copy → limit ≤ copy.due := by
  unfold due?
  cases Loop.due? system with
  | none => cases system.environment.nextCopy? with
    | none => simp
    | some copy => simp
  | some deadline => cases system.environment.nextCopy? with
    | none => simp
    | some copy => simp only [Option.some.injEq, forall_eq', Nat.le_min]

/-- What is due is the controller's to do where no copy is to end first. -/
theorem loopDue_of_unbusy (unbusy : system.environment.nextDue? system.now = none)
    (acts : system.due? = some due) (past : due ≤ system.now) : Loop.due? system = some due := by
  have later (copy : Copy) (next : system.environment.nextCopy? = some copy) :
      system.now < copy.due := by
    unfold SimulatedCluster.nextDue? at unbusy
    rw [next] at unbusy
    simpa using unbusy
  unfold due? at acts
  split at acts
  · next deadline copy controls next =>
    have ends := later copy next
    cases acts
    rw [controls, Nat.min_eq_left (by omega)]
  · next controls _ => rw [controls, acts]
  · next copy _ next =>
    have ends := later copy next
    cases acts
    omega
  · cases acts

/-- What the controller has to do is set for a time, or is to be done whatever the time. -/
theorem loopDue_setClock (system : System α) :
    (∀ now, Loop.due? (system.setClock now) = Loop.due? system) ∨
      ∀ now, Loop.due? (system.setClock now) = some now := by
  obtain ⟨controller, environment, _, stage, inbox, connected⟩ := system
  cases stage with
  | waiting | stopped => exact .inl fun _ => rfl
  | running deadline =>
    cases inbox with
    | cons message rest => exact .inr fun _ => rfl
    | nil =>
      cases connected with
      | true => exact .inl fun _ => rfl
      | false => exact .inr fun _ => rfl

theorem due_setClock (acts : system.due? = some due) :
    (system.setClock (max system.now due)).due? = some due := by
  rcases system.loopDue_setClock with fixed | prompt
  · unfold due? at acts ⊢
    rw [fixed]
    exact acts
  · have past : due ≤ system.now := by
      have controls : Loop.due? system = some system.now := prompt system.now
      unfold due? at acts
      rw [controls] at acts
      cases next : system.environment.nextCopy? with
      | none =>
        rw [next] at acts
        cases acts
        exact Nat.le_refl _
      | some copy =>
        rw [next] at acts
        cases acts
        exact Nat.min_le_left ..
    rw [Nat.max_eq_left past]
    exact acts

/-- A system that nobody sends to any more always has something to do until it stops. -/
theorem exists_due_of_closed (steady : system.IsSteady size) (closed : system.connected = false)
    (going : system.stage ≠ .stopped) : ∃ due, system.due? = some due ∧ due ≤ system.now := by
  have controls : ∃ due, Loop.due? system = some due ∧ due ≤ system.now := by
    unfold Loop.due?
    split
    · next waiting => exact ⟨_, rfl, steady.asks _ waiting⟩
    · exact ⟨system.now, by rw [closed]; rfl, Nat.le_refl _⟩
    · exact ⟨system.now, rfl, Nat.le_refl _⟩
    · next stopped => exact absurd stopped going
  obtain ⟨deadline, controls, past⟩ := controls
  unfold due?
  rw [controls]
  cases system.environment.nextCopy? with
  | none => exact ⟨deadline, rfl, past⟩
  | some copy => exact ⟨_, rfl, Nat.le_trans (Nat.min_le_left ..) past⟩

/-- An epoch less makes up for the copies that its end starts, and their acknowledgements. -/
theorem fuel_lt {epochs fewer perEpoch left right : Nat} (few : fewer + 1 ≤ epochs)
    (more : left < right + perEpoch) : fewer * perEpoch + left < epochs * perEpoch + right := by
  have product := Nat.mul_le_mul_right perEpoch few
  rw [Nat.succ_mul] at product
  omega

theorem fuelFor_endCopy {copy : Copy} (under : copy ∈ system.environment.copies) (limit : Nat) :
    (system.endCopy copy).fuelFor limit < system.fuelFor limit := by
  have fewer : (system.environment.copies.erase copy).length + 1 =
      system.environment.copies.length := by
    rw [List.length_erase_of_mem under]
    exact Nat.sub_add_cancel (List.length_pos_of_mem under)
  have sites : (system.environment.endCopy copy).topology.sites.size =
      system.environment.topology.sites.size :=
    (Topology.size_modifySite ..).trans (Topology.size_modifySite ..)
  unfold endCopy
  simp only
  split
  · unfold fuelFor Loop.enqueue
    change _ * (2 * (system.environment.endCopy copy).topology.sites.size + 2) +
      (system.inbox ++ [Message.moveDone copy.move.targetSite]).length +
        2 * (system.environment.copies.erase copy).length < _
    rw [sites, List.length_append, List.length_singleton]
    change system.epochsBefore limit * _ + _ + _ < _
    omega
  · unfold fuelFor
    change _ * (2 * (system.environment.endCopy copy).topology.sites.size + 2) +
      system.inbox.length + 2 * (system.environment.copies.erase copy).length < _
    rw [sites]
    change system.epochsBefore limit * _ + _ + _ < _
    omega

theorem fuelFor_poll (steady : system.IsSteady size) {nextPoll : Nat}
    (waiting : system.stage = .waiting nextPoll) (early : nextPoll < limit) :
    fuelFor (Loop.poll system) limit < system.fuelFor limit := by
  have ready : (Environment.isReady system.environment).1 = true := steady.sites.1
  have asked := steady.asks nextPoll waiting
  have lasting := Nat.pos_of_ne_zero steady.lasting
  unfold Loop.poll fuelFor epochsBefore
  simp only [ready, if_true, waiting, Nat.add_assoc]
  exact fuel_lt (by omega) (Nat.lt_add_of_pos_right (Nat.succ_pos _))

theorem fuelFor_receive (steady : system.IsSteady size) {message : Message}
    {rest : List Message} (oldest : system.inbox = message :: rest) (limit : Nat) :
    fuelFor (Loop.receive { system with inbox := rest } message) limit < system.fuelFor limit := by
  have kept := (SimulatedCluster.alike_hasSites size).receive system.controller system.now message
    ⟨rfl, steady.sites⟩
  have sites := kept.after.2.2.trans steady.sites.2.symm
  have copies := SimulatedCluster.copies_receive system.controller system.now message
    system.environment
  unfold fuelFor Loop.receive
  simp only [sites, copies, oldest, List.length_cons]
  change system.epochsBefore limit * _ + _ + _ < _
  omega

theorem fuelFor_stop {deadline : Nat} (running : system.stage = .running deadline) (limit : Nat) :
    fuelFor (Loop.stop system) limit < system.fuelFor limit := by
  unfold fuelFor epochsBefore Loop.stop
  simp only [running, Nat.add_assoc]
  exact fuel_lt (Nat.le_add_left ..) (Nat.lt_add_of_pos_right (Nat.succ_pos _))

end

variable {α : Type} [Scalar α] {first last system : System α} {batches : List (List Record)}
variable {size due limit : Nat}

theorem isSteady_start {config : Config α} (lasting : config.epochLength ≠ 0) (layout : Layout)
    (copyDelay now : Nat) :
    (start config layout copyDelay now).IsSteady layout.topology.sites.size where
  sites := ⟨rfl, rfl⟩
  asks _ waiting := Nat.le_of_eq (LoopStage.waiting.inj waiting).symm
  lasting := lasting

theorem IsSteady.turn {batch? : Option (List Record)} (steady : first.IsSteady size)
    (turn : Turn first batch? last) : last.IsSteady size := by
  cases turn with
  | sent | disconnected => exact { steady with }
  | @copied copy =>
    unfold endCopy
    simp only
    split
    · exact { steady with sites := steady.sites.endCopy copy }
    · exact { steady with sites := steady.sites.endCopy copy }
  | polled =>
    have ready : (Environment.isReady first.environment).1 = true := steady.sites.1
    unfold Loop.poll
    simp only [ready, if_true]
    exact ⟨steady.sites, nofun, steady.lasting⟩
  | @taken deadline message _ running =>
    have kept := (SimulatedCluster.alike_hasSites size).receive first.controller first.now message
      ⟨rfl, steady.sites⟩
    have config := first.controller.config_receive first.now message first.environment
    refine ⟨kept.after.2, fun _ waiting => ?_, ?_⟩
    · cases running.symm.trans waiting
    · exact (congrArg Config.epochLength config).trans_ne steady.lasting
  | boundary =>
    have kept := (SimulatedCluster.alike_hasSites size).closeEpoch first.controller first.now
      ⟨rfl, steady.sites⟩
    have config := first.controller.config_closeEpoch first.now first.environment
    refine ⟨kept.after.2, nofun, ?_⟩
    exact (congrArg Config.epochLength config).trans_ne steady.lasting
  | stopped => exact ⟨steady.sites, nofun, steady.lasting⟩
  | elapsed later =>
    exact { steady with asks := fun _ waiting => Nat.le_trans (steady.asks _ waiting) later }

theorem IsSteady.turns (steady : first.IsSteady size) (turns : Turns first batches last) :
    last.IsSteady size := by
  induction turns with
  | refl => exact steady
  | tail _ turn ih => exact ih.turn turn

theorem fuelFor_boundary (steady : system.IsSteady size) {deadline : Nat}
    (running : system.stage = .running deadline) (early : deadline < limit) :
    fuelFor (Loop.boundary system deadline) limit < system.fuelFor limit := by
  have kept := (SimulatedCluster.alike_hasSites size).closeEpoch system.controller system.now
    ⟨rfl, steady.sites⟩
  have sites := kept.after.2.2.trans steady.sites.2.symm
  have copies := SimulatedCluster.copies_closeEpoch system.controller system.now system.environment
  have config := system.controller.config_closeEpoch system.now system.environment
  have lasting := Nat.pos_of_ne_zero steady.lasting
  unfold fuelFor epochsBefore Loop.boundary
  simp only [sites, config, running, Nat.add_assoc]
  refine fuel_lt ?_ (by omega)
  split <;> omega

/-- Each step leaves less to do. -/
theorem fuelFor_act (steady : system.IsSteady size) (acts : system.due? = some due)
    (early : due < limit) (past : due ≤ system.now) :
    system.act.fuelFor limit < system.fuelFor limit := by
  unfold act
  split
  · next copy ends => exact fuelFor_endCopy (SimulatedCluster.of_nextDue? ends).1 limit
  · next unbusy =>
    have controls := loopDue_of_unbusy unbusy acts past
    unfold Loop.fire
    unfold Loop.due? at controls
    split
    · next nextPoll _ waiting =>
      rw [waiting] at controls
      cases controls
      exact fuelFor_poll steady waiting early
    · next deadline _ _ running oldest => exact fuelFor_receive steady oldest limit
    · next deadline running drained =>
      split
      · next connected =>
        rw [running, drained] at controls
        simp only [connected, if_true] at controls
        cases controls
        exact fuelFor_boundary steady running early
      · exact fuelFor_stop running limit
    · next stopped =>
      rw [stopped] at controls
      cases controls

theorem le_due_runBefore {fuel : Nat} (steady : system.IsSteady size)
    (enough : system.fuelFor limit ≤ fuel) :
    ∀ due, (runBefore limit fuel system).due? = some due → limit ≤ due := by
  induction fuel generalizing system with
  | zero =>
    intro due acts
    by_contra early
    let reached := system.setClock (max system.now due)
    have arrives := Turns.refl.quiet (.elapsed (Nat.le_max_left system.now due))
    have less := fuelFor_act (steady.turns arrives) (due_setClock acts) (Nat.lt_of_not_le early)
      (Nat.le_max_right ..)
    exact absurd (Nat.lt_of_lt_of_le less enough) (Nat.not_lt_zero _)
  | succ fuel ih =>
    unfold runBefore
    split
    · next due acts =>
      split
      · next early =>
        let reached := system.setClock (max system.now due)
        have arrives : Turns system [] reached :=
          Turns.refl.quiet (.elapsed (Nat.le_max_left system.now due))
        have here := steady.turns arrives
        have less := fuelFor_act here (due_setClock acts) early (Nat.le_max_right ..)
        have rest : reached.act.fuelFor limit < fuel + 1 := Nat.lt_of_lt_of_le less enough
        exact ih (here.turns reached.turns_act) (Nat.le_of_lt_succ rest)
      · next late =>
        intro other actsToo
        cases acts.symm.trans actsToo
        exact Nat.le_of_not_lt late
    · next idle =>
      intro due acts
      cases idle.symm.trans acts

/-- All that is due before a time happens until then. -/
theorem le_due_advance (steady : system.IsSteady size) (target : Nat) :
    ∀ due, (system.advance target).due? = some due → target ≤ due := by
  have done := le_due_iff.1 (le_due_runBefore steady (Nat.le_refl (system.fuelFor target)))
  refine le_due_iff.2 ⟨fun due controls => ?_, done.2⟩
  change Loop.due? (setClock _ _) = some due at controls
  rcases loopDue_setClock (runBefore target (system.fuelFor target) system) with fixed | prompt
  · exact done.1 due ((fixed _).symm.trans controls)
  · cases (prompt _).symm.trans controls
    exact Nat.le_max_right ..

/-- A system that nobody sends to any more handles what waits, and stops. -/
theorem stage_close (steady : system.IsSteady size) : system.close.stage = .stopped := by
  let closed := Loop.disconnect system
  have ⟨turns, now, connected⟩ :=
    turns_runBefore (closed.now + 1) (fuelFor closed (closed.now + 1)) closed
  have here : IsSteady size closed := { steady with }
  by_contra going
  obtain ⟨due, acts, past⟩ := exists_due_of_closed (here.turns turns) connected going
  have late := le_due_runBefore here (Nat.le_refl _) due acts
  omega

end System

end Rebalance
