import Mathlib.Algebra.Order.BigOperators.Group.Finset
import Mathlib.Tactic.Linarith
import Mathlib.Tactic.NormNum
import Mathlib.Tactic.Ring
import Rebalance.Proofs.Placement.Bound
import Rebalance.Proofs.Search.Feasible

/-!
What the search finds in exact arithmetic. A search that was not cut short leaves no feasible
placement that improves on its answer by more than one part in a billion, and without a node
budget it misses no feasible placement. However it ends, the answer is no worse than the
current placement, and partitions move only for an improvement.
-/

namespace Rebalance

namespace SearchProblem

/-- The hosts have room for every complete assignment within the limits. -/
theorem Admits.length_le {α : Type} {problem : SearchProblem α} {target : Assignment}
    (admits : Admits problem target) :
    problem.model.partitions.length ≤ problem.model.hosts.length * problem.limits.perHost := by
  have placed : ∀ number ∈ Finset.range problem.model.partitions.length,
      (target.hostAt number).getD 0 ∈ Finset.range problem.model.hosts.length := by
    intro number member
    obtain ⟨host, chosen⟩ := admits.assigned number (Finset.mem_range.1 member)
    rw [chosen, Option.getD_some, Finset.mem_range]
    exact admits.inRange number host chosen
  have room : ∀ host ∈ Finset.range problem.model.hosts.length,
      ((Finset.range problem.model.partitions.length).filter
        fun number => (target.hostAt number).getD 0 = host).card ≤ problem.limits.perHost := by
    intro host _
    have load := admits.capacity host
    rw [Assignment.load, admits.size, List.countP_eq_length_filter] at load
    apply le_trans (le_trans (Finset.card_le_card _) (List.toFinset_card_le _)) load
    intro number member
    rw [Finset.mem_filter] at member
    obtain ⟨known, chosen⟩ := admits.assigned number (Finset.mem_range.1 member.1)
    rw [chosen, Option.getD_some] at member
    rw [List.mem_toFinset, List.mem_filter, List.mem_range, chosen, member.2]
    exact ⟨Finset.mem_range.1 member.1, beq_self_eq_true _⟩
  have counted := Finset.card_le_mul_card_image_of_maps_to placed _ room
  rw [Finset.card_range, Finset.card_range] at counted
  rw [Nat.mul_comm]
  exact counted

variable {K : Type} [ExactField K]
variable {problem : SearchProblem K} {remaining rest : List Nat} {partition : Nat}
variable {state : SearchState K} {incumbent : Option (Assignment × K)}
variable {assignment target : Assignment} {estimate bound higher : K}

theorem improvementShare_eq : (improvementShare : K) = 1 / 10 ^ 9 := by
  show (((1 : Nat) : K) / ((1000000000 : Nat) : K)) = 1 / 10 ^ 9
  norm_num

theorem improvementShare_nonneg : (0 : K) ≤ improvementShare := by
  rw [improvementShare_eq]
  positivity

theorem isHopeless_some : isHopeless (some (assignment, estimate)) bound = true ↔
    estimate - |estimate| * improvementShare ≤ bound := by
  change decide (estimate - |estimate| * improvementShare ≤ bound) = true ↔ _
  rw [decide_eq_true_iff]

theorem not_isHopeless_some : isHopeless (some (assignment, estimate)) bound = false ↔
    bound < estimate - |estimate| * improvementShare := by
  rw [← Bool.not_eq_true, isHopeless_some, not_le]

theorem sub_share_le (estimate : K) : estimate - |estimate| * improvementShare ≤ estimate := by
  have share : 0 ≤ |estimate| * improvementShare :=
    mul_nonneg (abs_nonneg estimate) improvementShare_nonneg
  linarith

theorem isHopeless_of_le (hopeless : isHopeless incumbent bound = true) (le : bound ≤ higher) :
    isHopeless incumbent higher = true := by
  cases incumbent with
  | none => cases hopeless
  | some best =>
    rw [isHopeless_some] at hopeless ⊢
    exact hopeless.trans le

theorem isHopeless_self (le : estimate ≤ bound) :
    isHopeless (some (assignment, estimate)) bound = true := by
  rw [isHopeless_some]
  exact (sub_share_le estimate).trans le

theorem isHopeless_improve (hopeless : isHopeless incumbent bound = true)
    (hopeful : isHopeless incumbent estimate = false) :
    isHopeless (some (assignment, estimate)) bound = true := by
  cases incumbent with
  | none => cases hopeless
  | some best =>
    rw [isHopeless_some] at hopeless
    rw [not_isHopeless_some] at hopeful
    apply isHopeless_self
    exact hopeful.le.trans hopeless

theorem running_of_attempt {host : Nat}
    (finished : (problem.attempt partition rest state host).truncated = false) :
    state.truncated = false := by
  cases halted : state.truncated with
  | false => rfl
  | true =>
    rw [attempt, if_pos halted, halted] at finished
    cases finished

theorem running_of_foldl_attempt {hosts : List Nat}
    (finished : (hosts.foldl (problem.attempt partition rest) state).truncated = false) :
    state.truncated = false := by
  cases halted : state.truncated with
  | false => rfl
  | true =>
    rw [foldl_attempt_of_truncated halted, halted] at finished
    cases finished

/-- Trying the target's host, among others, leaves the target without hope, if visits one
level down do so. -/
theorem isHopeless_foldl_attempt (proper : problem.IsProper) (admits : Admits problem target)
    (tracks : Tracks problem (partition :: rest) state)
    (within : Within problem state.assignment) (agree : target.Extends state.assignment)
    {host : Nat} (chosen : target.hostAt partition = some host) {hosts : List Nat}
    (listed : ∀ other ∈ hosts, other ∈ problem.choices.getD partition []) (member : host ∈ hosts)
    (deeper : ∀ state, Tracks problem rest state → Within problem state.assignment →
      target.Extends state.assignment → (problem.branch rest state).truncated = false →
        isHopeless (problem.branch rest state).incumbent (problem.model.objective target) = true)
    (finished : (hosts.foldl (problem.attempt partition rest) state).truncated = false) :
    isHopeless (hosts.foldl (problem.attempt partition rest) state).incumbent
      (problem.model.objective target) = true := by
  have bound := tracks.bounded partition List.mem_cons_self
  induction hosts generalizing state with
  | nil => cases member
  | cons other hosts ih =>
    rw [List.foldl_cons] at finished ⊢
    have inside := proper.lt_of_mem_choices bound (listed other List.mem_cons_self)
    have same : SameBoard state (problem.attempt partition rest state other) :=
      sameBoard_attempt tracks inside fun _ => sameBoard_branch proper
    have tracksAfter := tracks.of_sameBoard same
    have withinAfter : Within problem (problem.attempt partition rest state other).assignment :=
      same.assignment ▸ within
    have listedAfter : ∀ other ∈ hosts, other ∈ problem.choices.getD partition [] :=
      fun other later => listed other (List.mem_cons_of_mem _ later)
    rcases List.mem_cons.1 member with here | later
    · subst here
      have ⟨allowed, further⟩ := allows_of_extends tracks admits agree chosen
      have tried := running_of_foldl_attempt finished
      have running := running_of_attempt tried
      have attempted : problem.attempt partition rest state host =
          problem.unplace partition host
            (problem.branch rest (problem.place partition host state)) := by
        rw [attempt, running, if_neg Bool.false_ne_true, if_pos allowed]
      have hopeless : isHopeless (problem.attempt partition rest state host).incumbent
          (problem.model.objective target) = true := by
        rw [attempted] at tried ⊢
        exact deeper _ (tracks.place inside) (within.place tracks inside allowed) further tried
      -- The hosts tried after the target's can only improve the incumbent.
      apply incumbent_foldl_attempt proper
        (isHopeless · (problem.model.objective target) = true) tracksAfter withinAfter
        listedAfter _ hopeless
      intro deeper tracksDeeper withinDeeper start
      apply incumbent_branch proper (isHopeless · (problem.model.objective target) = true) _
        tracksDeeper withinDeeper start
      exact fun _ _ hopeless _ => isHopeless_improve hopeless
    · apply ih tracksAfter withinAfter _ listedAfter later finished
      exact same.assignment ▸ agree

/-- A visit that ends on its own leaves no hope for any complete assignment below it. -/
theorem isHopeless_branch (proper : problem.IsProper) (estimated : problem.model.IsEstimate)
    (admits : Admits problem target) (tracks : Tracks problem remaining state)
    (within : Within problem state.assignment) (agree : target.Extends state.assignment)
    (finished : (problem.branch remaining state).truncated = false) :
    isHopeless (problem.branch remaining state).incumbent (problem.model.objective target) =
      true := by
  induction remaining generalizing state with
  | nil =>
    have lower := Model.objective_le_objective estimated agree
    have visit := problem.visit_branch [] state
    generalize problem.branch [] state = after at visit finished ⊢
    cases visit with
    | stopped halted =>
      rw [halted] at finished
      cases finished
    | exhausted => cases finished
    | pruned running hopeless => exact isHopeless_of_le hopeless lower
    | leaf => exact isHopeless_self lower
  | cons partition rest ih =>
    have lower := Model.objective_le_objective estimated agree
    have visit := problem.visit_branch (partition :: rest) state
    generalize problem.branch (partition :: rest) state = after at visit finished ⊢
    cases visit with
    | stopped halted =>
      rw [halted] at finished
      cases finished
    | exhausted => cases finished
    | pruned running hopeless => exact isHopeless_of_le hopeless lower
    | inner =>
      have inside := tracks.bounded partition List.mem_cons_self
      obtain ⟨host, chosen⟩ := admits.assigned partition inside
      have listed : host ∈ problem.choices.getD partition [] := by
        rw [(proper.choices partition inside).mem_iff, List.mem_range]
        exact admits.inRange partition host chosen
      have here : Tracks problem (partition :: rest) (counted state) :=
        tracks.of_sameBoard ⟨rfl, rfl, rfl⟩
      exact isHopeless_foldl_attempt proper admits here within agree chosen
        (fun _ member => member) listed (fun _ => ih) finished

theorem running_branch (unlimited : problem.limits.nodes = 0) (running : state.truncated = false) :
    (problem.branch remaining state).truncated = false := by
  induction remaining generalizing state with
  | nil =>
    have visit := problem.visit_branch [] state
    generalize problem.branch [] state = after at visit ⊢
    cases visit with
    | exhausted _ spent =>
      rw [overBudget, unlimited] at spent
      cases spent
    | stopped | pruned | leaf => exact running
  | cons partition rest ih =>
    have visit := problem.visit_branch (partition :: rest) state
    generalize problem.branch (partition :: rest) state = after at visit ⊢
    cases visit with
    | exhausted _ spent =>
      rw [overBudget, unlimited] at spent
      cases spent
    | stopped | pruned => exact running
    | inner =>
      refine List.foldlRecOn (motive := fun after : SearchState K => after.truncated = false)
        (problem.choices.getD partition []) _ running fun after running host _ => ?_
      unfold attempt
      split
      · exact running
      · split
        · exact ih running
        · exact running

theorem running_run (unlimited : problem.limits.nodes = 0) : problem.run.truncated = false := by
  unfold run
  simp only
  split
  · rfl
  · exact running_branch unlimited rfl

/-- A search that ends on its own leaves no hope for any complete assignment. -/
theorem isHopeless_run (proper : problem.IsProper) (estimated : problem.model.IsEstimate)
    (small : problem.model.hosts.length * problem.limits.perHost < 2 ^ 64)
    (admits : Admits problem target) (finished : problem.run.truncated = false) :
    isHopeless problem.run.incumbent (problem.model.objective target) = true := by
  have room : ¬ problem.model.partitions.length >
      problem.model.hosts.length * problem.limits.perHost % 2 ^ 64 := by
    rw [Nat.mod_eq_of_lt small]
    exact Nat.not_lt.2 admits.length_le
  have searched : problem.run = problem.branch problem.order problem.start := by
    rw [run]
    exact if_neg room
  rw [searched] at finished ⊢
  apply isHopeless_branch proper estimated admits (tracks_start proper) (within_start problem)
  · intro number host chosen
    rw [start, Assignment.hostAt_replicate] at chosen
    cases chosen
  · exact finished

theorem exhaustive_of_unlimited {limits : SearchLimits} {sample : Sample} {current : Placement}
    {hosts : IdSet} {solution : Solution K} (unlimited : limits.nodes = 0)
    (found : findPlacement limits sample current hosts = some solution) :
    solution.exhaustive = true := by
  obtain ⟨_, _, _, _, finished⟩ := exists_incumbent found
  rw [finished, running_run unlimited, Bool.not_false]

/-- Whatever the search improves on, it keeps the current assignment or falls below it by more
than the share. -/
theorem home_or_better (proper : problem.IsProper)
    (estimated : problem.model.IsEstimate) (admits : Admits problem problem.home) :
    ∃ assignment estimate, problem.run.incumbent = some (assignment, estimate) ∧
      ((assignment = problem.home ∧ estimate = problem.model.objective problem.home) ∨
        estimate < problem.model.objective problem.home * (1 - 1 / 10 ^ 9)) := by
  have positive := Model.objective_nonneg estimated problem.home
  apply incumbent_run proper (fun incumbent => ∃ assignment estimate,
    incumbent = some (assignment, estimate) ∧
      ((assignment = problem.home ∧ estimate = problem.model.objective problem.home) ∨
        estimate < problem.model.objective problem.home * (1 - 1 / 10 ^ 9)))
  · intro incumbent better known _ hopeful
    obtain ⟨assignment, estimate, same, cases⟩ := known
    subst same
    rw [not_isHopeless_some] at hopeful
    refine ⟨better, problem.model.objective better, rfl, .inr ?_⟩
    rcases cases with ⟨_, kept⟩ | below
    · rw [kept, abs_of_nonneg positive, improvementShare_eq] at hopeful
      calc problem.model.objective better
          < problem.model.objective problem.home -
              problem.model.objective problem.home * (1 / 10 ^ 9) := hopeful
        _ = problem.model.objective problem.home * (1 - 1 / 10 ^ 9) := by ring
    · exact (hopeful.trans_le (sub_share_le estimate)).trans below
  · exact ⟨_, _, (seed_eq_some_iff proper).2 ⟨admits, rfl⟩, .inl ⟨rfl, rfl⟩⟩

/-- From a current placement within the capacity there is an answer. It keeps the partition view
of that placement, or has an estimate lower by more than the share. -/
theorem exists_kept_or_better {limits : SearchLimits} {current : Placement} (sample : Sample)
    (hosts : IdSet) (fits : ∀ host, current.byPartition.values.count host ≤ limits.perHost) :
    ∃ solution : Solution K, findPlacement limits sample current hosts = some solution ∧
      ((solution.placement.byPartition = current.byPartition ∧
          solution.estimate = estimatedTime sample current) ∨
        solution.estimate < estimatedTime sample current * (1 - 1 / 10 ^ 9)) := by
  have known := known_current current hosts
  have numbered : (Model.build sample current hosts : Model K).IsNumbered :=
    Model.isNumbered_build sample current hosts
  let problem : SearchProblem K := .ofSample limits sample current hosts
  have present : problem.model.objective problem.home = estimatedTime sample current :=
    Model.objective_eq_estimatedTime rfl known
  obtain ⟨assignment, estimate, final, outcome⟩ := home_or_better isProper_ofSample
    (Model.isEstimate_build (K := K) sample current hosts) (admits_home fits)
  rw [present] at outcome
  refine ⟨_, Option.map_eq_some_iff.2 ⟨_, final, rfl⟩, outcome.imp_left ?_⟩
  rintro ⟨kept, same⟩
  refine ⟨?_, same⟩
  change ((Model.build sample current hosts : Model K).decode assignment).byPartition = _
  rw [kept]
  exact Model.byPartition_decode_assignmentOf numbered (fun _ => Iff.rfl) known

end SearchProblem

variable {K : Type} [ExactField K]

/-- An exhaustive answer is within one part in a billion of the estimate of every feasible
placement, and where nothing limits the search it answers unless there is none; this as long as
64 bits hold how many partitions there is room for. -/
theorem findPlacement_optimal (limits : SearchLimits) (sample : Sample) (current : Placement)
    (hosts : IdSet)
    (small : (Model.build sample current hosts : Model K).hosts.length * limits.perHost < 2 ^ 64) :
    let model : Model K := Model.build sample current hosts
    let answer : Option (Solution K) := findPlacement limits sample current hosts
    (∀ solution, answer = some solution → solution.exhaustive = true →
      ∀ target : Placement, target.Feasible limits current hosts →
        solution.estimate * (1 - 1 / 10 ^ 9) ≤ model.objective (model.assignmentOf target)) ∧
    (limits.nodes = 0 →
      (answer = none ↔ ¬ ∃ target : Placement, target.Feasible limits current hosts)) := by
  intro model answer
  have estimated := Model.isEstimate_build (K := K) sample current hosts
  constructor
  · intro solution found exhaustive target feasible
    obtain ⟨assignment, final, _, _, finished⟩ := SearchProblem.exists_incumbent found
    have scored := (SearchProblem.admits_run SearchProblem.isProper_ofSample final).2
    have positive : 0 ≤ solution.estimate :=
      scored ▸ Model.objective_nonneg estimated assignment
    have ended : (SearchProblem.ofSample limits sample current hosts :
        SearchProblem K).run.truncated = false := by
      rw [exhaustive] at finished
      exact Bool.not_eq_true' _ ▸ finished.symm
    have hopeless := SearchProblem.isHopeless_run SearchProblem.isProper_ofSample estimated small
      (SearchProblem.admits_of_feasible feasible) ended
    rw [final, SearchProblem.isHopeless_some, abs_of_nonneg positive,
      SearchProblem.improvementShare_eq] at hopeless
    calc solution.estimate * (1 - 1 / 10 ^ 9)
        = solution.estimate - solution.estimate * (1 / 10 ^ 9) := by ring
      _ ≤ model.objective (model.assignmentOf target) := hopeless
  · intro unlimited
    have finished : (SearchProblem.ofSample limits sample current hosts :
      SearchProblem K).run.truncated = false := SearchProblem.running_run unlimited
    constructor
    · intro missing solved
      obtain ⟨target, feasible⟩ := solved
      have hopeless := SearchProblem.isHopeless_run SearchProblem.isProper_ofSample estimated small
        (SearchProblem.admits_of_feasible feasible) finished
      have empty := Option.map_eq_none_iff.1 missing
      change (SearchProblem.ofSample limits sample current hosts).run.incumbent = none at empty
      rw [empty] at hopeless
      cases hopeless
    · intro unsolvable
      apply Option.eq_none_iff_forall_ne_some.2
      intro solution found
      obtain ⟨assignment, final, decoded, _⟩ := SearchProblem.exists_incumbent found
      have admits := (SearchProblem.admits_run SearchProblem.isProper_ofSample final).1
      exact unsolvable ⟨_, SearchProblem.feasible_decode admits⟩

/-- Moving one of three partitions to a new host is one of the placements that an unlimited
search compares its answer with. -/
theorem findPlacement_optimal_newHost :
    let limits : SearchLimits := { perHost := 2, moved := 1, nodes := 0 }
    let key : GroupKey := { procedure := "pay", host := 300, scope := .single 1 }
    let sample := ((Sample.new 8).recordTransaction key 40 .far).2.reconcile
    let current := Placement.ofPairs [(100, 1), (100, 2), (200, 3)]
    let target := Placement.ofPairs [(100, 2), (200, 3), (300, 1)]
    let model : Model ℚ := Model.build sample current (.ofList [300])
    model.hosts.length * limits.perHost < 2 ^ 64 ∧
    ∃ solution, findPlacement limits sample current (.ofList [300]) = some solution ∧
      solution.exhaustive = true ∧ target.Feasible limits current (.ofList [300]) ∧
      solution.estimate * (1 - 1 / 10 ^ 9) ≤ model.objective (model.assignmentOf target) := by
  intro limits key sample current target model
  have small : model.hosts.length * limits.perHost < 2 ^ 64 := by decide
  have sizes : ∀ entry ∈ target.hosts.entries, entry.2.size ≤ limits.perHost := by decide
  have feasible : target.Feasible limits current (.ofList [300]) :=
    { partitions := by decide
      single := by
        unfold Placement.IsSingle
        decide
      known := by
        simp only [IdSet.mem_def]
        decide
      capacity := fun host held found => sizes _ (IdMap.get?_eq_some_iff.1 found)
      budget := by decide }
  have ⟨optimal, complete⟩ :=
    findPlacement_optimal (K := ℚ) limits sample current (.ofList [300]) small
  have answered : findPlacement limits sample current (.ofList [300]) ≠ none :=
    fun missing => (complete rfl).1 missing ⟨target, feasible⟩
  obtain ⟨solution, found⟩ := Option.ne_none_iff_exists'.1 answered
  have exhaustive := SearchProblem.exhaustive_of_unlimited rfl found
  exact ⟨small, solution, found, exhaustive, feasible, optimal solution found exhaustive target feasible⟩

/-- From a current placement within the capacity there is an answer no worse than it, and
partitions move only for an estimate lower by more than one part in a billion. -/
theorem findPlacement_no_worse (limits : SearchLimits) (sample : Sample) (current : Placement)
    (hosts : IdSet) (fits : ∀ host, current.byPartition.values.count host ≤ limits.perHost) :
    ∃ solution : Solution K, findPlacement limits sample current hosts = some solution ∧
      solution.estimate ≤ estimatedTime sample current ∧
      ((solution.moved = 0 ∧ solution.placement.byPartition = current.byPartition) ∨
        solution.estimate < estimatedTime sample current * (1 - 1 / 10 ^ 9)) := by
  have positive : (0 : K) ≤ estimatedTime sample current := estimatedTime_nonneg sample current
  obtain ⟨solution, found, outcome⟩ :=
    SearchProblem.exists_kept_or_better (K := K) sample hosts fits
  refine ⟨solution, found, ?_, outcome.imp_left ?_⟩
  · rcases outcome with ⟨_, same⟩ | below
    · exact same.le
    · linarith
  · rintro ⟨views, _⟩
    obtain ⟨_, _, _, moves, _⟩ := SearchProblem.exists_incumbent found
    exact ⟨moves.trans (Placement.movedCount_eq_zero views), views⟩

/-- The search is cut off at its fifth node, by when it has found that one of two partitions is
better on a new host. -/
theorem findPlacement_no_worse_truncated :
    let limits : SearchLimits := { perHost := 3, moved := 2, nodes := 4 }
    let key : GroupKey := { procedure := "pay", host := 200, scope := .single 2 }
    let sample := ((Sample.new 8).recordTransaction key 40 .far).2.reconcile
    let current := Placement.ofPairs [(100, 1), (100, 2)]
    (∀ host, current.byPartition.values.count host ≤ limits.perHost) ∧
    ∃ solution : Solution ℚ, findPlacement limits sample current (.ofList [200]) = some solution ∧
      solution.placement = .ofPairs [(100, 1), (200, 2)] ∧ solution.exhaustive = false ∧
      solution.moved = 1 ∧ solution.estimate ≤ estimatedTime sample current ∧
      solution.estimate < estimatedTime sample current * (1 - 1 / 10 ^ 9) := by
  intro limits key sample current
  have two : current.byPartition.values.length = 2 := by decide
  have fits : ∀ host, current.byPartition.values.count host ≤ limits.perHost :=
    fun host => (List.count_le_length.trans (Nat.le_of_eq two)).trans (by decide)
  have ordered : (SearchProblem.ofModel (.build sample current (.ofList [200]) : Model ℚ) current
      limits).order = [1, 0] :=
    (SearchProblem.branchingOrder_pair _ _).trans (if_neg (by decide +kernel))
  have answered : (findPlacement limits sample current (.ofList [200]) : Option (Solution ℚ)).map
      (fun solution => (solution.placement, solution.exhaustive, solution.moved)) =
        some (.ofPairs [(100, 1), (200, 2)], false, 1) := by
    unfold findPlacement
    simp only [SearchProblem.run_of_order ordered (by decide +kernel)]
    decide +kernel
  obtain ⟨solution, found, noWorse, outcome⟩ :=
    findPlacement_no_worse (K := ℚ) limits sample current (.ofList [200]) fits
  rw [found, Option.map_some, Option.some.injEq, Prod.mk.injEq, Prod.mk.injEq] at answered
  obtain ⟨placed, truncated, moved⟩ := answered
  refine ⟨fits, solution, found, placed, truncated, moved, noWorse, outcome.resolve_left ?_⟩
  rintro ⟨stays, _⟩
  exact absurd (moved.symm.trans stays) (by decide)

end Rebalance
