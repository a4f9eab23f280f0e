import Mathlib.Data.List.Induction
import Rebalance.Controller.Staged
import Rebalance.Proofs.Migration.Books

/-!
A run from its dispatch on. Whatever the cluster accepts, and whatever is acknowledged in
whatever order, unknown sites and sites acknowledged before among them: each accepted move
counts once, and with the last of them the run is complete.
-/

namespace Rebalance.Run

section
variable {σ : Type} [Environment σ]

def accepted : List Move → σ → List Move
  | [], _ => []
  | move :: moves, environment =>
    let (taken, environment) := Environment.startMove move environment
    if taken then move :: accepted moves environment else accepted moves environment

theorem accepted_sublist (moves : List Move) (environment : σ) :
    (accepted moves environment).Sublist moves := by
  induction moves generalizing environment with
  | nil => exact .slnil
  | cons move moves ih =>
    unfold accepted
    simp only
    split
    · exact (ih _).cons_cons move
    · exact (ih _).cons move

theorem dispatch_eq (run : Run) (moves : List Move) (environment : σ) :
    (dispatch run moves environment).1 =
      { run with
        outstanding := (accepted moves environment).foldl
          (fun books move => books.insert move.targetSite move) run.outstanding } := by
  induction moves generalizing run environment with
  | nil => rfl
  | cons move moves ih =>
    rw [dispatch_cons, ih]
    simp only [accepted]
    cases (Environment.startMove move environment).1 with
    | true => rfl
    | false => rfl

end

def after (run : Run) (acks : List SiteId) : Run :=
  acks.foldl (fun run site => (run.acknowledge site).2) run

def answers : Run → List SiteId → List AckOutcome
  | _, [] => []
  | run, site :: acks => (run.acknowledge site).1 :: (run.acknowledge site).2.answers acks

def pending (accepted : List Move) (acks : List SiteId) : List Move :=
  accepted.filter (·.targetSite ∉ acks)

theorem after_concat (run : Run) (acks : List SiteId) (site : SiteId) :
    run.after (acks ++ [site]) = ((run.after acks).acknowledge site).2 :=
  List.foldl_concat ..

theorem answers_concat (run : Run) (acks : List SiteId) (site : SiteId) :
    run.answers (acks ++ [site]) = run.answers acks ++ [((run.after acks).acknowledge site).1] := by
  induction acks generalizing run with
  | nil => rfl
  | cons ack acks ih => exact congrArg (_ :: ·) (ih _)

variable {run : Run} {accepted : List Move} {acks : List SiteId} {site : SiteId}

theorem pending_concat_eq_nil (done : pending accepted acks = []) (site : SiteId) :
    pending accepted (acks ++ [site]) = [] := by
  unfold pending at done ⊢
  rw [List.filter_eq_nil_iff] at done ⊢
  intro move member missing
  refine done move member (decide_eq_true fun early => ?_)
  exact of_decide_eq_true missing (List.mem_append_left _ early)

theorem moves_after_perm (run : Run) (acks : List SiteId) :
    (run.after acks).moves.Perm run.moves := by
  induction acks using List.reverseRecOn with
  | nil => exact .refl _
  | append_singleton acks site ih =>
    rw [after_concat]
    exact (moves_acknowledge_perm _ site).trans ih

theorem Books.after (books : Books run accepted []) (acks : List SiteId) :
    Books (run.after acks) accepted acks := by
  induction acks using List.reverseRecOn with
  | nil => exact books
  | append_singleton acks site ih =>
    rw [after_concat]
    exact ih.acknowledge site

theorem acknowledge_eq_ignored_iff (run : Run) (site : SiteId) :
    (run.acknowledge site).1 = .ignored ↔ run.outstanding.get? site = none := by
  cases found : run.outstanding.get? site with
  | none => simp [acknowledge_of_unknown found]
  | some move =>
    rw [acknowledge_of_known found]
    split
    · simp
    · simp

theorem acknowledge_unchanged_iff (run : Run) (site : SiteId) :
    (run.acknowledge site).2 = run ↔ run.outstanding.get? site = none := by
  cases found : run.outstanding.get? site with
  | none => simp [acknowledge_of_unknown found]
  | some move =>
    rw [acknowledge_of_known found]
    apply iff_of_false _ nofun
    intro same
    have longer := congrArg (fun run : Run => run.completed.length) same
    simp [acknowledged] at longer

theorem Books.get?_eq_none_iff (books : Books run accepted acks) :
    run.outstanding.get? site = none ↔
      ∀ move ∈ run.outstanding.values, move.targetSite ≠ site := by
  constructor
  · intro unknown move listed here
    obtain ⟨key, found⟩ := IdMap.mem_values.1 listed
    rw [← here, ((books.isAwaited key move).1 found).2, found] at unknown
    cases unknown
  · intro away
    by_contra known
    obtain ⟨move, found⟩ := Option.ne_none_iff_exists'.1 known
    exact away move (IdMap.mem_values.2 ⟨site, found⟩) ((books.isAwaited site move).1 found).2

/-- A run is complete with the acknowledgement after which nothing is pending any more. -/
theorem Books.acknowledge_eq_complete_iff (books : Books run accepted acks) :
    (run.acknowledge site).1 = .complete ↔
      pending accepted acks ≠ [] ∧ pending accepted (acks ++ [site]) = [] := by
  have before := books.isComplete_iff
  have after := (books.acknowledge site).isComplete_iff
  cases found : run.outstanding.get? site with
  | none =>
    rw [acknowledge_of_unknown found] at after ⊢
    apply iff_of_false nofun
    intro outcome
    exact outcome.1 (before.1 (after.2 outcome.2))
  | some move =>
    have waits : pending accepted acks ≠ [] :=
      List.ne_nil_of_mem ((books.isAwaited site move).1 found).1
    rw [acknowledge_of_known found] at after ⊢
    rw [and_iff_right waits, pending, ← after]
    cases (run.acknowledged move site).isComplete with
    | true => simp
    | false => simp

/-- How a run for which some moves were accepted takes acknowledgements. -/
structure Settles (run : Run) (accepted : List Move) : Prop where
  /-- Each accepted move is outstanding or completed, not both, and there is nothing else. -/
  parts : ∀ acks,
    ((run.after acks).outstanding.values ++ (run.after acks).completed).Perm accepted ∧
      (run.after acks).outstanding.values.Disjoint (run.after acks).completed
  remaining : ∀ acks, (run.after acks).outstanding.size = (pending accepted acks).length
  /-- What no outstanding move goes into is ignored. -/
  ignores : ∀ acks site, ((run.after acks).acknowledge site).1 = .ignored ↔
    ∀ move ∈ (run.after acks).outstanding.values, move.targetSite ≠ site
  /-- What is ignored, and nothing else, leaves the run as it is. -/
  unchanged : ∀ acks site, ((run.after acks).acknowledge site).2 = run.after acks ↔
    ∀ move ∈ (run.after acks).outstanding.values, move.targetSite ≠ site
  /-- The run is complete with the acknowledgement that leaves nothing pending. -/
  completes : ∀ acks site, ((run.after acks).acknowledge site).1 = .complete ↔
    pending accepted acks ≠ [] ∧ pending accepted (acks ++ [site]) = []
  once : ∀ acks, (run.answers acks).count .complete =
    if accepted ≠ [] ∧ pending accepted acks = [] then 1 else 0
  /-- The sources of acknowledged moves are to be retired, and no others. -/
  sources : ∀ acks host site, (host, site) ∈ (run.after acks).sources ↔
    ∃ move ∈ accepted, move.targetSite ∈ acks ∧ move.sourceHost = host ∧ move.sourceSite = site
  /-- The order of acknowledgements makes no difference to what is reported, to any cluster. -/
  reports : ∀ acks others,
    (∀ move ∈ accepted, move.targetSite ∈ acks ↔ move.targetSite ∈ others) →
      ∀ (τ : Type) [Environment τ] (environment : τ),
        (run.after acks).retireSources environment = (run.after others).retireSources environment

theorem Books.count_complete (books : Books run accepted []) (acks : List SiteId) :
    (run.answers acks).count .complete =
      if accepted ≠ [] ∧ pending accepted acks = [] then 1 else 0 := by
  induction acks using List.reverseRecOn with
  | nil => simp [answers, pending]
  | append_singleton acks site ih =>
    have last : ((run.after acks).acknowledge site).1 = .complete ↔ _ :=
      (books.after acks).acknowledge_eq_complete_iff
    rw [answers_concat, List.count_append, ih, List.count_singleton]
    by_cases done : pending accepted acks = []
    · have still := pending_concat_eq_nil done site
      simp [done, still, last]
    · have some : accepted ≠ [] := by
        rintro rfl
        exact done rfl
      simp [done, some, last]

theorem Books.moves_perm (books : Books run accepted []) (fresh : run.completed = [])
    (distinct : accepted.Nodup) : run.moves.Perm accepted := by
  have awaited := books.isAwaited
  simp only [List.not_mem_nil, not_false_eq_true, decide_true, List.filter_true] at awaited
  rw [moves, fresh, List.append_nil]
  exact awaited.values_perm distinct

/-- A run that knows each accepted move under its own site settles them. -/
theorem Books.settles (books : Books run accepted []) (fresh : run.completed = [])
    (distinct : accepted.Nodup) : Settles run accepted := by
  have listed := books.moves_perm fresh distinct
  constructor
  · intro acks
    have parts := (run.moves_after_perm acks).trans listed
    exact ⟨parts, List.disjoint_of_nodup_append (parts.nodup_iff.2 distinct)⟩
  · intro acks
    have awaited := (books.after acks).isAwaited.values_perm (distinct.filter _)
    rw [← IdMap.length_values]
    exact awaited.length_eq
  · intro acks site
    rw [acknowledge_eq_ignored_iff, (books.after acks).get?_eq_none_iff]
  · intro acks site
    rw [acknowledge_unchanged_iff, (books.after acks).get?_eq_none_iff]
  · intro acks site
    exact (books.after acks).acknowledge_eq_complete_iff
  · exact books.count_complete
  · intro acks host site
    rw [mem_sources]
    simp only [(books.after acks).completed, and_assoc]
  · intro acks others same τ _ environment
    unfold retireSources
    rw [sources_eq_of_mem_iff fun move => ?_]
    rw [(books.after acks).completed, (books.after others).completed]
    exact and_congr_right fun member => same move member

section
variable {σ : Type} [Environment σ] {moves : List Move}

theorem books_dispatch (distinct : (moves.map (·.targetSite)).Nodup) (environment : σ) :
    Books (dispatch {} moves environment).1 (Run.accepted moves environment) [] := by
  have kept := (accepted_sublist moves environment).map (·.targetSite)
  have awaited := isAwaited_empty.foldl_insert (distinct.sublist kept)
    fun _ _ _ known => absurd known List.not_mem_nil
  rw [dispatch_eq]
  constructor
  · intro site move
    rw [List.nil_append] at awaited
    rw [awaited site move]
    simp
  · intro move
    simp

theorem nodup_accepted (distinct : (moves.map (·.targetSite)).Nodup) (environment : σ) :
    (Run.accepted moves environment).Nodup :=
  .of_map _ (distinct.sublist ((accepted_sublist moves environment).map _))

theorem completed_dispatch (run : Run) (moves : List Move) (environment : σ) :
    (dispatch run moves environment).1.completed = run.completed := by
  rw [dispatch_eq]

/-- A run takes each of the moves that the cluster accepted as acknowledged once, whatever is
acknowledged and in whatever order, as long as the planned moves go into different sites. -/
theorem settles_dispatch (distinct : (moves.map (·.targetSite)).Nodup) (environment : σ) :
    Settles (dispatch {} moves environment).1 (Run.accepted moves environment) :=
  (books_dispatch distinct environment).settles (completed_dispatch {} moves environment)
    (nodup_accepted distinct environment)

end

def threeMoves : List Move :=
  [⟨101, 100, 1, 200, 11⟩, ⟨102, 100, 2, 200, 12⟩, ⟨103, 100, 1, 300, 13⟩]

def pickyCluster : StagedCluster :=
  { topology := .new [] [], rejectMoves := IdSet.empty.insert 12 }

theorem settles_dispatch_picky :
    (threeMoves.map (·.targetSite)).Nodup ∧
      Run.accepted threeMoves pickyCluster =
        [⟨101, 100, 1, 200, 11⟩, ⟨103, 100, 1, 300, 13⟩] ∧
      Settles (dispatch {} threeMoves pickyCluster).1 (Run.accepted threeMoves pickyCluster) := by
  have distinct : (threeMoves.map (·.targetSite)).Nodup := by decide
  exact ⟨distinct, by decide, settles_dispatch distinct pickyCluster⟩

/-- The refused site is not waited for, and a site counts once. -/
example :
    (dispatch {} threeMoves pickyCluster).1.answers [13, 12, 13, 11, 11] =
      [.progress 1, .ignored, .ignored, .complete, .ignored] := by
  decide

end Rebalance.Run
