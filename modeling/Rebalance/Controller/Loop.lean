import Rebalance.Controller.Basic

/-!
The controller's loop in virtual time. It asks until the cluster is ready. From then on it takes
the oldest message that waits for it. While none waits it closes an epoch at each deadline, and
stops once nobody can send any more.
-/

namespace Rebalance

inductive LoopStage
  /-- Not yet ready; asked again at `nextPoll`. -/
  | waiting (nextPoll : Nat)
  | running (deadline : Nat)
  | stopped
deriving DecidableEq, Inhabited

structure Loop (α σ : Type) where
  controller : Controller α
  environment : σ
  now : Nat
  stage : LoopStage
  /-- Messages that wait for the controller, oldest first. -/
  inbox : List Message := []
  /-- Whether anyone can still send. -/
  connected : Bool := true

namespace Loop

section
variable {α σ : Type}

def new (controller : Controller α) (environment : σ) (now : Nat) : Loop α σ :=
  { controller, environment, now, stage := .waiting now }

def enqueue (loop : Loop α σ) (message : Message) : Loop α σ :=
  { loop with inbox := loop.inbox ++ [message] }

def disconnect (loop : Loop α σ) : Loop α σ := { loop with connected := false }

def hasRoom (loop : Loop α σ) : Bool :=
  loop.inbox.length < loop.controller.config.channelCapacity

def due? (loop : Loop α σ) : Option Nat :=
  match loop.stage, loop.inbox with
  | .waiting nextPoll, _ => some nextPoll
  | .running deadline, [] => if loop.connected then some deadline else some loop.now
  | .running _, _ :: _ => some loop.now
  | .stopped, _ => none

end

variable {α : Type} [Scalar α] {σ : Type} [Environment σ]

def poll (loop : Loop α σ) : Loop α σ :=
  let (ready, environment) := Environment.isReady loop.environment
  let config := loop.controller.config
  if ready then
    { loop with
      environment
      controller := loop.controller.begin loop.now
      stage := .running (loop.now + config.epochLength) }
  else { loop with environment, stage := .waiting (loop.now + config.startupPoll) }

def receive (loop : Loop α σ) (message : Message) : Loop α σ :=
  let (controller, environment) := loop.controller.receive loop.now message loop.environment
  { loop with controller, environment }

/-- Closes the epoch. A deadline already missed again starts afresh from now. -/
def boundary (loop : Loop α σ) (deadline : Nat) : Loop α σ :=
  let (controller, environment) := loop.controller.closeEpoch loop.now loop.environment
  let length := controller.config.epochLength
  let next := if deadline + length ≤ loop.now then loop.now + length else deadline + length
  { loop with controller, environment, stage := .running next }

def stop (loop : Loop α σ) : Loop α σ :=
  { loop with controller := loop.controller.stop, stage := .stopped }

def fire (loop : Loop α σ) : Loop α σ :=
  match loop.stage, loop.inbox with
  | .waiting _, _ => loop.poll
  | .running _, message :: rest => { loop with inbox := rest }.receive message
  | .running deadline, [] => if loop.connected then loop.boundary deadline else loop.stop
  | .stopped, _ => loop

def runUntil (target : Nat) : Nat → Loop α σ → Loop α σ
  | 0, loop => loop
  | fuel + 1, loop =>
    match loop.due? with
    | some due =>
      if due ≤ target then runUntil target fuel { loop with now := max loop.now due }.fire
      else loop
    | none => loop

/-- Lets time pass. Polls and deadlines lie at least a nanosecond apart, which bounds the steps
together with the messages that wait. -/
def sleep (loop : Loop α σ) (span : Nat) : Loop α σ :=
  let target := loop.now + span
  { runUntil target (loop.inbox.length + span + 2) loop with now := target }

def settle (loop : Loop α σ) : Loop α σ := loop.sleep 0

/-- Sets the clock forward at once; whatever is then due happens once, at the new time. -/
def jump (loop : Loop α σ) (span : Nat) : Loop α σ := settle { loop with now := loop.now + span }

def start (controller : Controller α) (environment : σ) (now : Nat) : Loop α σ :=
  settle (new controller environment now)

/-- Sends without waiting; tells whether the message was taken. -/
def offer (loop : Loop α σ) (message : Message) : Bool × Loop α σ :=
  if loop.connected && loop.stage != .stopped && loop.hasRoom then
    (true, (loop.enqueue message).settle)
  else (false, loop)

def close (loop : Loop α σ) : Loop α σ := loop.disconnect.settle

end Loop

end Rebalance
