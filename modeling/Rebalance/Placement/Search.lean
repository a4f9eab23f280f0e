import Rebalance.Placement.Model

/-!
The placement search: depth first over the partitions, with the estimate of a partial
assignment as lower bound. The current placement, where it is allowed, is the first
incumbent, so no answer is worse than it; a node budget may stop the search early.
-/

namespace Rebalance

structure SearchLimits where
  perHost : Nat
  /-- How many partitions may change host. -/
  moved : Nat
  /-- How many nodes may be visited; zero for any number. -/
  nodes : Nat
deriving DecidableEq, Inhabited

structure Solution (α : Type) where
  placement : Placement
  estimate : α
  /-- Partitions whose host differs from the placement solved for. -/
  moved : Nat
  /-- Whether every alternative was considered. -/
  exhaustive : Bool
  nodes : Nat
deriving DecidableEq, Inhabited

/-- A search problem: the model, the limits, and the order in which to try things. -/
structure SearchProblem (α : Type) where
  model : Model α
  limits : SearchLimits
  /-- The assignment of the current placement. -/
  home : Assignment
  order : List Nat
  /-- For each partition number, the host numbers in order of trial. -/
  choices : Array (List Nat)
deriving Inhabited

structure SearchState (α : Type) where
  assignment : Assignment
  /-- Partitions assigned to each host number. -/
  load : Array Nat
  /-- Partitions assigned away from home. -/
  moved : Nat := 0
  /-- The best complete assignment so far, and its estimate. -/
  incumbent : Option (Assignment × α) := none
  nodes : Nat := 0
  /-- Whether the node budget ran out. -/
  truncated : Bool := false
deriving Inhabited

variable {α : Type} [Scalar α]

def improvementShare : α := Scalar.one / Scalar.ofCount 1000000000

@[inline] def isHopeless (incumbent : Option (Assignment × α)) (bound : α) : Bool :=
  match incumbent with
  | some (_, best) => Scalar.le (best - Scalar.abs best * improvementShare) bound
  | none => false

namespace SearchProblem

def homeOf (problem : SearchProblem α) (partition : Nat) : Option Nat :=
  problem.home[partition]?.getD none

/-- Host numbers by falling affinity; equal ones keep their order. -/
def byAffinity (affinity : Array α) (hosts : List Nat) : List Nat :=
  hosts.mergeSort fun a b =>
    Scalar.rankLe (affinity.getD b Scalar.zero) (affinity.getD a Scalar.zero)

def hostChoices (home : Option Nat) (affinity : Array α) (hosts : List Nat) : List Nat :=
  match home with
  | some host => host :: byAffinity affinity (hosts.erase host)
  | none => byAffinity affinity hosts

def branchingOrder (affinities : List (Array α)) : List Nat :=
  let masses := (affinities.map fun affinity => Scalar.sum affinity.toList).toArray
  (List.range masses.size).mergeSort fun a b =>
    Scalar.rankLe (masses.getD b Scalar.zero) (masses.getD a Scalar.zero)

def ofModel (model : Model α) (current : Placement) (limits : SearchLimits) : SearchProblem α :=
  let home := model.assignmentOf current
  let affinities := (List.range model.partitions.length).map model.affinity
  let hosts := List.range model.hosts.length
  let choices := affinities.zipIdx.map fun entry =>
    hostChoices (home[entry.2]?.getD none) entry.1 hosts
  { model, limits, home, order := branchingOrder affinities, choices := choices.toArray }

def loadsOf (hosts : Nat) (assignment : Assignment) : Array Nat :=
  let add (loads : Array Nat) (host : Option Nat) : Array Nat :=
    match host with
    | some host => loads.modify host (· + 1)
    | none => loads
  assignment.foldl add (Array.replicate hosts 0)

def seed (problem : SearchProblem α) : Option (Assignment × α) :=
  if problem.home.any Option.isNone then none
  else
    let loads := loadsOf problem.model.hosts.length problem.home
    if loads.any (problem.limits.perHost < ·) then none
    else some (problem.home, problem.model.objective problem.home)

def start (problem : SearchProblem α) : SearchState α :=
  { assignment := Array.replicate problem.model.partitions.length none
    load := Array.replicate problem.model.hosts.length 0
    incumbent := problem.seed }

@[inline] def moveCost (problem : SearchProblem α) (partition host : Nat) : Nat :=
  if problem.homeOf partition = some host then 0 else 1

@[inline] def allows (problem : SearchProblem α) (state : SearchState α) (partition host : Nat) :
    Bool :=
  state.load.getD host 0 < problem.limits.perHost &&
    state.moved + problem.moveCost partition host ≤ problem.limits.moved

@[inline] def place (problem : SearchProblem α) (partition host : Nat) (state : SearchState α) :
    SearchState α :=
  { state with
    assignment := state.assignment.setIfInBounds partition (some host)
    load := state.load.modify host (· + 1)
    moved := state.moved + problem.moveCost partition host }

@[inline] def unplace (problem : SearchProblem α) (partition host : Nat) (state : SearchState α) :
    SearchState α :=
  { state with
    assignment := state.assignment.setIfInBounds partition none
    load := state.load.modify host (· - 1)
    moved := state.moved - problem.moveCost partition host }

@[inline] def overBudget (problem : SearchProblem α) (nodes : Nat) : Bool :=
  problem.limits.nodes > 0 && nodes > problem.limits.nodes

/-- Visits a node whose partitions in `remaining` are still to be assigned, and all below. -/
@[specialize] def branch (problem : SearchProblem α) (remaining : List Nat)
    (state : SearchState α) : SearchState α :=
  if state.truncated then state
  else
    let state := { state with nodes := state.nodes + 1 }
    if problem.overBudget state.nodes then { state with truncated := true }
    else
      let bound := problem.model.objective state.assignment
      if isHopeless state.incumbent bound then state
      else
        match remaining with
        | [] => { state with incumbent := some (state.assignment, bound) }
        | partition :: rest =>
          let attempt (state : SearchState α) (host : Nat) : SearchState α :=
            if state.truncated then state
            else if problem.allows state partition host then
              problem.unplace partition host
                (problem.branch rest (problem.place partition host state))
            else state
          (problem.choices.getD partition []).foldl attempt state

/-- Searches from the root, unless the hosts cannot even hold all partitions. What they can hold
is reckoned in 64 bits. -/
def run (problem : SearchProblem α) : SearchState α :=
  let capacity := problem.model.hosts.length * problem.limits.perHost % Nat.pow 2 64
  if problem.model.partitions.length > capacity then problem.start
  else problem.branch problem.order problem.start

end SearchProblem

/-- The best placement of the partitions of `current` on `hosts` and its own hosts that keeps
within the limits; none where there is no such placement. -/
def findPlacement (limits : SearchLimits) (sample : Sample) (current : Placement)
    (hosts : IdSet) : Option (Solution α) :=
  let model : Model α := Model.build sample current hosts
  let final := (SearchProblem.ofModel model current limits).run
  final.incumbent.map fun incumbent =>
    let placement := model.decode incumbent.1
    { placement
      estimate := incumbent.2
      moved := current.movedCount placement
      exhaustive := !final.truncated
      nodes := final.nodes }

end Rebalance
