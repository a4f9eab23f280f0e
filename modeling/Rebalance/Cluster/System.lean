import Rebalance.Cluster.Simulated
import Rebalance.Controller.Loop

/-!
The controller and a simulated cluster as one closed system in virtual time. The end of a
copy is acknowledged to the controller as long as its inbox is open, and everything happens in
the order of its time; of what falls due at one time, copies end first.
-/

namespace Rebalance

abbrev System (α : Type) := Loop α SimulatedCluster

namespace System

def start {α : Type} [Scalar α] (config : Config α) (layout : Layout) (copyDelay now : Nat) : System α :=
  Loop.new (.new config) (.new layout copyDelay now) now

section
variable {α : Type}

def setClock (system : System α) (now : Nat) : System α :=
  { system with now, environment := { system.environment with clock := now } }

def endCopy (system : System α) (copy : Copy) : System α :=
  let ended := { system with environment := system.environment.endCopy copy }
  if ended.connected then Loop.enqueue ended (.moveDone copy.move.targetSite) else ended

def due? (system : System α) : Option Nat :=
  match Loop.due? system, system.environment.nextCopy? with
  | some deadline, some copy => some (min deadline copy.due)
  | some deadline, none => some deadline
  | none, some copy => some copy.due
  | none, none => none

end

variable {α : Type} [Scalar α]

/-- Does one thing that is due now: ends a copy, or else lets the controller act. -/
def act (system : System α) : System α :=
  match system.environment.nextDue? system.now with
  | some copy => system.endCopy copy
  | none => Loop.fire system

def runBefore (limit : Nat) : Nat → System α → System α
  | 0, system => system
  | fuel + 1, system =>
    match system.due? with
    | some due =>
      if due < limit then runBefore limit fuel (act (system.setClock (max system.now due)))
      else system
    | none => system

def epochsBefore (system : System α) (limit : Nat) : Nat :=
  match system.stage with
  | .waiting nextPoll => limit - nextPoll + 1
  | .running deadline => limit - deadline + 1
  | .stopped => 0

/-- The steps that may be needed before `limit`. Each epoch that ends until then starts at most as
many copies as the cluster has sites, and a copy ends and is acknowledged. -/
def fuelFor (system : System α) (limit : Nat) : Nat :=
  system.epochsBefore limit * (2 * system.environment.topology.sites.size + 2)
    + system.inbox.length + 2 * system.environment.copies.length

/-- Lets time pass until `target`. Whoever acts then goes before whatever falls due then. -/
def advance (system : System α) (target : Nat) : System α :=
  (runBefore target (system.fuelFor target) system).setClock (max system.now target)

def settle (system : System α) : System α :=
  runBefore (system.now + 1) (system.fuelFor (system.now + 1)) system

def send (system : System α) (message : Message) : System α :=
  Loop.enqueue (if Loop.hasRoom system then system else system.settle) message

def close (system : System α) : System α := settle (Loop.disconnect system)

end System

end Rebalance
