import Rebalance.Proofs.Controller.Alike
import Rebalance.Proofs.Migration.Run

/-!
A cluster that notes every request for a change, accepted or not. It answers as the cluster
inside does, so the controller does with it what it does without.
-/

namespace Rebalance

inductive Request
  | startMove (move : Move) (accepted : Bool)
  | retireSite (host : HostId) (site : SiteId) (accepted : Bool)
deriving DecidableEq, Inhabited

namespace Request

def started? : Request → Option Move
  | startMove move _ => some move
  | retireSite .. => none

def accepted? : Request → Option Move
  | startMove move true => some move
  | _ => none

def reported? : Request → Option (HostId × SiteId)
  | retireSite host site _ => some (host, site)
  | startMove .. => none

theorem accepted_sublist_started (requests : List Request) :
    (requests.filterMap accepted?).Sublist (requests.filterMap started?) := by
  induction requests with
  | nil => exact .slnil
  | cons request requests ih =>
    cases request with
    | startMove move accepted =>
      cases accepted with
      | true => exact ih.cons_cons move
      | false => exact ih.cons move
    | retireSite => exact ih

end Request

structure Watched (σ : Type) where
  inner : σ
  /-- Oldest first. -/
  requests : List Request := []
deriving Inhabited

namespace Watched

variable {σ : Type} [Environment σ]

instance : Environment (Watched σ) where
  isReady watched :=
    let (ready, inner) := Environment.isReady watched.inner
    (ready, { watched with inner })
  snapshot watched :=
    let (topology, inner) := Environment.snapshot watched.inner
    (topology, { watched with inner })
  startMove move watched :=
    let (accepted, inner) := Environment.startMove move watched.inner
    (accepted, { inner, requests := watched.requests ++ [.startMove move accepted] })
  retireSite host site watched :=
    let (accepted, inner) := Environment.retireSite host site watched.inner
    (accepted, { inner, requests := watched.requests ++ [.retireSite host site accepted] })

theorem alike : Environment.Alike fun (watched : Watched σ) (inner : σ) =>
    watched.inner = inner where
  isReady same := by subst same; exact ⟨rfl, rfl⟩
  snapshot same := by subst same; exact ⟨rfl, rfl⟩
  startMove _ same := by subst same; exact ⟨rfl, rfl⟩
  retireSite _ _ same := by subst same; exact ⟨rfl, rfl⟩

/-- What a dispatch asks for: every move, in order, and nothing else. The run books the moves
that are accepted. -/
structure Dispatched (run : Run) (moves : List Move) (watched : Watched σ)
    (after : Run × Watched σ) (asked : List Request) : Prop where
  requests : after.2.requests = watched.requests ++ asked
  started : asked.filterMap Request.started? = moves
  reported : asked.filterMap Request.reported? = []
  outstanding : after.1.outstanding =
    (asked.filterMap Request.accepted?).foldl
      (fun books move => books.insert move.targetSite move) run.outstanding
  completed : after.1.completed = run.completed

theorem exists_dispatched (run : Run) (moves : List Move) (watched : Watched σ) :
    ∃ asked, Dispatched run moves watched (Run.dispatch run moves watched) asked := by
  induction moves generalizing run watched with
  | nil => exact ⟨[], (List.append_nil _).symm, rfl, rfl, rfl, rfl⟩
  | cons move moves ih =>
    rw [Run.dispatch_cons]
    simp only [Environment.startMove]
    obtain ⟨asked, later⟩ := ih _ _
    refine ⟨.startMove move (Environment.startMove move watched.inner).1 :: asked, ?_⟩
    constructor
    · rw [later.requests, List.append_assoc]
      rfl
    · exact congrArg (move :: ·) later.started
    · exact later.reported
    · rw [later.outstanding]
      cases (Environment.startMove move watched.inner).1 with
      | true => rfl
      | false => rfl
    · rw [later.completed]
      split
      · rfl
      · rfl

theorem exists_retired_foldl (sources : List (HostId × SiteId)) (state : Nat × Watched σ) :
    ∃ asked, (sources.foldl Run.retireSource state).2.requests = state.2.requests ++ asked ∧
      asked.filterMap Request.started? = [] ∧
        asked.filterMap Request.reported? = sources := by
  induction sources generalizing state with
  | nil => exact ⟨[], (List.append_nil _).symm, rfl, rfl⟩
  | cons source sources ih =>
    obtain ⟨asked, requests, started, reported⟩ := ih (Run.retireSource state source)
    refine ⟨.retireSite source.1 source.2
      (Environment.retireSite source.1 source.2 state.2.inner).1 :: asked, ?_, started, ?_⟩
    · rw [List.foldl_cons, requests, List.append_cons]
      rfl
    · exact congrArg (source :: ·) reported

/-- What retiring the sources asks for: every source, in order, and nothing else. -/
theorem exists_retired (run : Run) (watched : Watched σ) :
    ∃ asked, (run.retireSources watched).2.requests = watched.requests ++ asked ∧
      asked.filterMap Request.started? = [] ∧
        asked.filterMap Request.reported? = run.sources :=
  exists_retired_foldl run.sources (0, watched)

end Watched

end Rebalance
