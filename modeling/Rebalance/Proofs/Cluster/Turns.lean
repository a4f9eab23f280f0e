import Rebalance.Cluster.System
import Rebalance.Proofs.Cluster.Simulated

/-!
What can happen to a system, one thing at a time and in any order. Copies end and deadlines pass
while messages wait for the controller, and the inbox may be closed over them. What a system
does by itself in virtual time is one of these orders.
-/

namespace Rebalance

def Message.acked? : Message → Option SiteId
  | moveDone site => some site
  | telemetry _ => none

def Message.batch? : Message → Option (List Record)
  | telemetry batch => some batch
  | moveDone _ => none

namespace System

section
variable {α : Type}

def acks (system : System α) : List SiteId := system.inbox.filterMap Message.acked?

def pending (system : System α) : List (List Record) := system.inbox.filterMap Message.batch?

theorem acks_enqueue (system : System α) (message : Message) :
    acks (Loop.enqueue system message) = system.acks ++ message.acked?.toList := by
  refine List.filterMap_append.trans ?_
  cases message <;> rfl

theorem pending_enqueue (system : System α) (message : Message) :
    pending (Loop.enqueue system message) = system.pending ++ message.batch?.toList := by
  refine List.filterMap_append.trans ?_
  cases message <;> rfl

def Follows (system : System α) (controller : Controller α) : Prop :=
  system.controller = if system.stage = .stopped then controller.stop else controller

variable {system : System α} {controller : Controller α}

theorem Follows.of_running (follows : system.Follows controller) {deadline : Nat}
    (running : system.stage = .running deadline) : system.controller = controller := by
  rw [Follows, running] at follows
  exact follows

theorem Follows.intro {deadline : Nat} (running : system.stage = .running deadline)
    (same : system.controller = controller) : system.Follows controller := by
  rw [Follows, running, same]
  rfl

theorem Follows.of_waiting (follows : system.Follows controller) {nextPoll : Nat}
    (waiting : system.stage = .waiting nextPoll) : system.controller = controller := by
  rw [Follows, waiting] at follows
  exact follows

theorem Follows.state (follows : system.Follows controller) :
    system.controller.state = controller.state := by
  rw [follows]
  split
  · rfl
  · rfl

end

variable {α : Type} [Scalar α]

/-- One thing that happens to a system, with the batch that it brings, if any. The times at which
it may happen are left open, but for the order in which messages are taken and the end, which
comes when nobody can send and nothing waits. -/
inductive Turn : System α → Option (List Record) → System α → Prop where
  | sent {system : System α} (batch : List Record) (connected : system.connected = true) :
      Turn system (some batch) (Loop.enqueue system (.telemetry batch))
  | copied {system : System α} {copy : Copy} (under : copy ∈ system.environment.copies) :
      Turn system none (system.endCopy copy)
  | polled {system : System α} {nextPoll : Nat} (waiting : system.stage = .waiting nextPoll) :
      Turn system none (Loop.poll system)
  | taken {system : System α} {deadline : Nat} {message : Message} {rest : List Message}
      (running : system.stage = .running deadline) (oldest : system.inbox = message :: rest) :
      Turn system none (Loop.receive { system with inbox := rest } message)
  | boundary {system : System α} {deadline : Nat} (running : system.stage = .running deadline) :
      Turn system none (Loop.boundary system deadline)
  | disconnected {system : System α} : Turn system none (Loop.disconnect system)
  | stopped {system : System α} {deadline : Nat} (running : system.stage = .running deadline)
      (drained : system.inbox = []) (closed : system.connected = false) :
      Turn system none (Loop.stop system)
  | elapsed {system : System α} {now : Nat} (later : system.now ≤ now) :
      Turn system none (system.setClock now)

/-- Turns one after the other, with the batches that they bring in the order of their sending. -/
inductive Turns (first : System α) : List (List Record) → System α → Prop where
  | refl : Turns first [] first
  | tail {batches : List (List Record)} {batch? : Option (List Record)} {middle last : System α}
      (turns : Turns first batches middle) (turn : Turn middle batch? last) :
      Turns first (batches ++ batch?.toList) last

variable {first middle last system : System α} {batches others : List (List Record)}

theorem Turns.quiet (turns : Turns first batches middle) (turn : Turn middle none last) :
    Turns first batches last := by
  have longer := turns.tail turn
  rwa [Option.toList_none, List.append_nil] at longer

theorem Turns.trans (turns : Turns first batches middle) (rest : Turns middle others last) :
    Turns first (batches ++ others) last := by
  induction rest with
  | refl => rwa [List.append_nil]
  | tail _ turn ih =>
    rw [← List.append_assoc]
    exact ih.tail turn

/-- What a system does is a turn, unless it has stopped and no copy is due. -/
theorem turns_act (system : System α) : Turns system [] system.act := by
  unfold act
  split
  · next copy due => exact Turns.refl.quiet (.copied (SimulatedCluster.of_nextDue? due).1)
  · unfold Loop.fire
    split
    · next nextPoll _ waiting => exact Turns.refl.quiet (.polled waiting)
    · next deadline _ _ running oldest => exact Turns.refl.quiet (.taken running oldest)
    · next deadline running drained =>
      split
      · exact Turns.refl.quiet (.boundary running)
      · next closed => exact Turns.refl.quiet (.stopped running drained (Bool.eq_false_iff.2 closed))
    · exact .refl

theorem act_keeps (system : System α) :
    system.act.now = system.now ∧ system.act.connected = system.connected := by
  unfold act
  split
  · unfold endCopy
    simp only
    split
    · exact ⟨rfl, rfl⟩
    · exact ⟨rfl, rfl⟩
  · unfold Loop.fire
    split
    · unfold Loop.poll
      simp only
      split
      · exact ⟨rfl, rfl⟩
      · exact ⟨rfl, rfl⟩
    · exact ⟨rfl, rfl⟩
    · split
      · exact ⟨rfl, rfl⟩
      · exact ⟨rfl, rfl⟩
    · exact ⟨rfl, rfl⟩

/-- Time that passes is turns that bring no batch, and nobody closes the inbox meanwhile. -/
theorem turns_runBefore (limit fuel : Nat) (system : System α) :
    Turns system [] (runBefore limit fuel system) ∧
      (runBefore limit fuel system).now ≤ max system.now (limit - 1) ∧
        (runBefore limit fuel system).connected = system.connected := by
  have bound := Nat.le_max_left system.now (limit - 1)
  induction fuel generalizing system with
  | zero => exact ⟨.refl, bound, rfl⟩
  | succ fuel ih =>
    unfold runBefore
    split
    · next due _ =>
      split
      · next early =>
        let reached := system.setClock (max system.now due)
        have ⟨now, connected⟩ := reached.act_keeps
        have ⟨turns, final, open?⟩ := ih reached.act (Nat.le_max_left ..)
        have elapsed : Turns system [] reached := Turns.refl.quiet (.elapsed (Nat.le_max_left _ due))
        refine ⟨elapsed.trans ((turns_act reached).trans turns), Nat.le_trans final ?_,
          open?.trans connected⟩
        rw [now]
        change max (max system.now due) (limit - 1) ≤ max system.now (limit - 1)
        omega
      · exact ⟨.refl, bound, rfl⟩
    · exact ⟨.refl, bound, rfl⟩

theorem turns_settle (system : System α) : Turns system [] system.settle :=
  (turns_runBefore ..).1

theorem connected_settle (system : System α) : system.settle.connected = system.connected :=
  (turns_runBefore ..).2.2

theorem turns_advance (system : System α) (target : Nat) :
    Turns system [] (system.advance target) := by
  have ⟨turns, now, _⟩ := turns_runBefore target (system.fuelFor target) system
  exact turns.quiet (.elapsed (by omega))

theorem connected_advance (system : System α) (target : Nat) :
    (system.advance target).connected = system.connected :=
  (turns_runBefore target (system.fuelFor target) system).2.2

/-- A batch goes out once, after what the system does until there is room for it. -/
theorem turns_send (connected : system.connected = true) (batch : List Record) :
    Turns system [batch] (system.send (.telemetry batch)) := by
  unfold send
  split
  · exact Turns.refl.tail (.sent batch connected)
  · have settled := system.connected_settle.trans connected
    exact (turns_settle system).tail (.sent batch settled)

theorem connected_send (system : System α) (message : Message) :
    (system.send message).connected = system.connected := by
  unfold send
  split
  · rfl
  · exact system.connected_settle

theorem turns_close (system : System α) : Turns system [] system.close :=
  (Turns.refl.quiet .disconnected).trans (turns_settle _)

end System

end Rebalance
