import Rebalance.Migration.Plan

/-!
One migration under way. Planned moves are handed to the cluster; each that it accepts is
outstanding until its acknowledgement comes, and when none is left the source sites of all
acknowledged moves are retired.
-/

namespace Rebalance

/-- What a controller asks of the cluster it serves. Every answer may change the cluster. -/
class Environment (σ : Type) where
  isReady : σ → Bool × σ
  /-- The topology at this moment; none when it cannot be read. -/
  snapshot : σ → Option Topology × σ
  /-- Whether a copy was accepted. Its end is acknowledged later. -/
  startMove : Move → σ → Bool × σ
  /-- Whether the report that a site is to be retired was accepted. -/
  retireSite : HostId → SiteId → σ → Bool × σ

structure Run where
  /-- Accepted and not yet acknowledged, by target site. -/
  outstanding : IdMap Move := .empty
  /-- In order of acknowledgement. -/
  completed : List Move := []
deriving DecidableEq, Inhabited

inductive AckOutcome
  | progress (remaining : Nat)
  | complete
  /-- The acknowledged site is not that of an outstanding move. -/
  | ignored
deriving DecidableEq, Inhabited

namespace Run

def isComplete (run : Run) : Bool := run.outstanding.isEmpty

section
variable {σ : Type} [Environment σ]

def dispatchMove (state : Run × σ) (move : Move) : Run × σ :=
  let (accepted, environment) := Environment.startMove move state.2
  if accepted then
    ({ state.1 with outstanding := state.1.outstanding.insert move.targetSite move }, environment)
  else (state.1, environment)

/-- Hands the moves to the cluster in order; a rejected move is dropped. -/
def dispatch (run : Run) (moves : List Move) (environment : σ) : Run × σ :=
  moves.foldl dispatchMove (run, environment)

end

def acknowledge (run : Run) (site : SiteId) : AckOutcome × Run :=
  match run.outstanding.get? site with
  | none => (.ignored, run)
  | some move =>
    let outstanding := run.outstanding.erase site
    let run : Run := { outstanding, completed := run.completed ++ [move] }
    (if outstanding.isEmpty then .complete else .progress outstanding.size, run)

def sources (run : Run) : List (HostId × SiteId) :=
  let add (sites : IdMap IdSet) (move : Move) : IdMap IdSet :=
    sites.upsert move.sourceHost (fun known => (known.getD .empty).insert move.sourceSite)
  (run.completed.foldl add .empty).entries.flatMap fun entry =>
    entry.2.toList.map fun site => (entry.1, site)

section
variable {σ : Type} [Environment σ]

def retireSource (state : Nat × σ) (source : HostId × SiteId) : Nat × σ :=
  let (accepted, environment) := Environment.retireSite source.1 source.2 state.2
  (if accepted then state.1 + 1 else state.1, environment)

/-- Retires every source site and counts the reports that were accepted. -/
def retireSources (run : Run) (environment : σ) : Nat × σ :=
  run.sources.foldl retireSource (0, environment)

end

end Run

end Rebalance
