import Rebalance.Proofs.Exact
import Rebalance.Proofs.Placement.Cost
import Rebalance.Proofs.Search.Board

/-!
What the search may answer. A feasible placement holds the same partitions, each on one known
host, within the capacity and the allowance of moves. Feasible placements and the complete
assignments within the limits describe each other, and every answer of the search is feasible,
whatever the arithmetic and wherever the node budget stops it.
-/

namespace Rebalance

/-- A placement of exactly the partitions of `current`, each on one of the hosts of `hosts` and
`current`, that keeps within the limits. -/
structure Placement.Feasible (target : Placement) (limits : SearchLimits) (current : Placement)
    (hosts : IdSet) : Prop where
  partitions : target.partitions = current.partitions
  single : target.IsSingle
  known : ∀ entry ∈ target.pairs, entry.1 ∈ hosts.union current.hostIds
  capacity : ∀ host held, target.partitionsOn host = some held → held.size ≤ limits.perHost
  budget : current.movedCount target ≤ limits.moved

namespace SearchProblem

section
variable {α : Type} {problem : SearchProblem α}

def addLoad (loads : Array Nat) (host : Option Nat) : Array Nat :=
  match host with
  | some host => loads.modify host (· + 1)
  | none => loads

theorem getElem?_foldl_addLoad (choices : List (Option Nat)) (loads : Array Nat) (host : Nat) :
    (choices.foldl addLoad loads)[host]? =
      (loads[host]?).map (· + choices.count (some host)) := by
  induction choices generalizing loads with
  | nil => simp
  | cons choice choices ih =>
    rw [List.foldl_cons, ih, List.count_cons]
    cases choice with
    | none => simp [addLoad]
    | some other =>
      show ((loads.modify other (· + 1))[host]?).map _ = _
      rw [Array.getElem?_modify]
      by_cases here : other = host
      · subst here
        simp [Function.comp_def, Nat.add_assoc, Nat.add_comm 1]
      · simp [here]

theorem getElem?_loadsOf (hosts : Nat) (assignment : Assignment) (host : Nat) :
    (loadsOf hosts assignment)[host]? =
      if host < hosts then some (assignment.load host) else none := by
  have folded : loadsOf hosts assignment =
      assignment.toList.foldl addLoad (Array.replicate hosts 0) := by
    rw [Array.foldl_toList]
    rfl
  rw [folded, getElem?_foldl_addLoad, Array.getElem?_replicate, Assignment.load_eq_count]
  split <;> simp

theorem home_assigned_iff (proper : problem.IsProper) :
    problem.home.any Option.isNone = false ↔
      ∀ number < problem.model.partitions.length, ∃ host,
        problem.home.hostAt number = some host := by
  rw [Array.any_eq_false]
  constructor
  · intro assigned number bound
    have inside : number < problem.home.size := proper.size ▸ bound
    rw [Assignment.hostAt, Array.getElem?_eq_getElem inside, Option.getD_some]
    exact Option.ne_none_iff_exists'.1 fun missing => assigned number inside (by rw [missing]; rfl)
  · intro assigned number inside missing
    obtain ⟨host, chosen⟩ := assigned number (proper.size ▸ inside)
    rw [Assignment.hostAt, Array.getElem?_eq_getElem inside, Option.getD_some] at chosen
    rw [chosen] at missing
    cases missing

theorem home_loads_iff (proper : problem.IsProper) :
    (loadsOf problem.model.hosts.length problem.home).any (problem.limits.perHost < ·) = false ↔
      ∀ host, problem.home.load host ≤ problem.limits.perHost := by
  have listed := getElem?_loadsOf problem.model.hosts.length problem.home
  rw [Array.any_eq_false]
  constructor
  · intro allowed host
    by_cases below : host < problem.model.hosts.length
    · have found := listed host
      rw [if_pos below] at found
      obtain ⟨inside, same⟩ := Array.getElem?_eq_some_iff.1 found
      have within := allowed host inside
      rw [same, decide_eq_true_eq] at within
      omega
    · rw [Model.load_eq_zero_of_inRange proper.inRange (Nat.le_of_not_lt below)]
      exact Nat.zero_le _
  · intro allowed host inside full
    have found := listed host
    rw [Array.getElem?_eq_getElem inside] at found
    split at found
    · rw [Option.some.inj found, decide_eq_true_eq] at full
      have within := allowed host
      omega
    · cases found

end

variable {α : Type} [Scalar α]

theorem byAffinity_perm (affinity : Array α) (hosts : List Nat) :
    (byAffinity affinity hosts).Perm hosts := List.mergeSort_perm _ _

theorem hostChoices_perm {home : Option Nat} {hosts : List Nat}
    (listed : ∀ host, home = some host → host ∈ hosts) (affinity : Array α) :
    (hostChoices home affinity hosts).Perm hosts := by
  unfold hostChoices
  cases home with
  | none => exact byAffinity_perm affinity hosts
  | some host =>
    exact ((byAffinity_perm affinity _).cons host).trans
      (List.perm_cons_erase (listed host rfl)).symm

theorem choices_ofModel (model : Model α) (current : Placement) (limits : SearchLimits)
    {partition : Nat} (bound : partition < model.partitions.length) :
    (ofModel model current limits).choices.getD partition [] =
      hostChoices ((model.assignmentOf current).hostAt partition) (model.affinity partition)
        (List.range model.hosts.length) := by
  simp [ofModel, Assignment.hostAt, bound]

theorem branchingOrder_pair (first second : Array α) :
    branchingOrder [first, second] =
      if Scalar.rankLe (Scalar.sum second.toList) (Scalar.sum first.toList) then [0, 1]
      else [1, 0] := by
  change [0, 1].mergeSort _ = _
  simp [List.mergeSort, List.MergeSort.Internal.splitInTwo, List.merge]

theorem isProper_ofModel (model : Model α) (current : Placement) (limits : SearchLimits) :
    (ofModel model current limits).IsProper where
  order := by
    have sorted := List.mergeSort_perm (List.range model.partitions.length)
    simpa [ofModel, branchingOrder] using sorted _
  choices partition bound := by
    rw [choices_ofModel model current limits bound]
    refine hostChoices_perm (fun host chosen => List.mem_range.2 ?_) _
    exact model.inRange_assignmentOf current partition host chosen
  size := model.size_assignmentOf current
  inRange := model.inRange_assignmentOf current

variable {problem : SearchProblem α}

theorem run_of_order {order : List Nat} (ordered : problem.order = order)
    (fits : problem.model.partitions.length ≤
      problem.model.hosts.length * problem.limits.perHost % Nat.pow 2 64) :
    problem.run = problem.branch order problem.start := by
  unfold run
  rw [ordered]
  exact if_neg (Nat.not_lt.2 fits)

theorem tracks_start (proper : problem.IsProper) :
    Tracks problem problem.order problem.start := by
  have members : ∀ number, number ∈ problem.order ↔
      number < problem.model.partitions.length := by
    intro number
    rw [proper.order.mem_iff, List.mem_range]
  constructor
  · exact Array.size_replicate
  · exact proper.nodup_order
  · intro number below
    exact iff_of_true (Assignment.hostAt_replicate _ number) ((members number).2 below)
  · exact fun number listed => (members number).1 listed
  · intro number host chosen
    rw [start, Assignment.hostAt_replicate] at chosen
    cases chosen
  · exact Array.size_replicate
  · intro host below
    rw [start, Assignment.load_replicate]
    simp [below]
  · exact (Assignment.apart_replicate _ problem.home).symm

theorem within_start (problem : SearchProblem α) :
    Within problem problem.start.assignment where
  capacity host := by
    rw [start, Assignment.load_replicate]
    exact Nat.zero_le _
  budget := by
    rw [start, Assignment.apart_replicate]
    exact Nat.zero_le _

/-- The search is seeded with the current assignment, if that keeps within the limits. -/
theorem seed_eq_some_iff (proper : problem.IsProper) {incumbent : Assignment × α} :
    problem.seed = some incumbent ↔
      Admits problem problem.home ∧
        incumbent = (problem.home, problem.model.objective problem.home) := by
  unfold seed
  by_cases assigned : problem.home.any Option.isNone = false
  · have complete := (home_assigned_iff proper).1 assigned
    simp only [assigned, Bool.false_eq_true, if_false]
    by_cases loads :
        (loadsOf problem.model.hosts.length problem.home).any (problem.limits.perHost < ·) = false
    · have admits : Admits problem problem.home :=
        { capacity := (home_loads_iff proper).1 loads
          budget := Nat.le_trans (Nat.le_of_eq (Assignment.apart_self _)) (Nat.zero_le _)
          size := proper.size
          assigned := complete
          inRange := proper.inRange }
      rw [if_neg (Bool.eq_false_iff.1 loads), Option.some.injEq, and_iff_right admits, eq_comm]
    · have full : ¬ Admits problem problem.home :=
        fun admits => loads ((home_loads_iff proper).2 admits.capacity)
      rw [if_pos (Bool.of_not_eq_false loads)]
      simp [full]
  · have missing : ¬ Admits problem problem.home :=
      fun admits => assigned ((home_assigned_iff proper).2 admits.assigned)
    rw [if_pos (Bool.of_not_eq_false assigned)]
    simp [missing]

/-- Every visit from the root starts out from the seed and stays among complete assignments
within the limits. -/
theorem incumbent_run (proper : problem.IsProper) (holds : Option (Assignment × α) → Prop)
    (improve : ∀ incumbent assignment, holds incumbent → Admits problem assignment →
      isHopeless incumbent (problem.model.objective assignment) = false →
        holds (some (assignment, problem.model.objective assignment)))
    (start : holds problem.seed) : holds problem.run.incumbent := by
  unfold run
  simp only
  split
  · exact start
  · exact incumbent_branch proper holds improve (tracks_start proper) (within_start problem) start

/-- Whatever the search ends with is complete, within the limits and scored by its objective. -/
theorem admits_run (proper : problem.IsProper) {assignment : Assignment} {estimate : α}
    (found : problem.run.incumbent = some (assignment, estimate)) :
    Admits problem assignment ∧ estimate = problem.model.objective assignment := by
  refine incumbent_run proper (fun incumbent => ∀ assignment estimate,
    incumbent = some (assignment, estimate) →
      Admits problem assignment ∧ estimate = problem.model.objective assignment) ?_ ?_ _ _ found
  · intro incumbent better _ admits _ assignment estimate same
    cases same
    exact ⟨admits, rfl⟩
  · intro assignment estimate seeded
    obtain ⟨admits, same⟩ := (seed_eq_some_iff proper).1 seeded
    cases same
    exact ⟨admits, rfl⟩

def ofSample (limits : SearchLimits) (sample : Sample) (current : Placement) (hosts : IdSet) :
    SearchProblem α :=
  ofModel (.build sample current hosts) current limits

variable {limits : SearchLimits} {sample : Sample} {current target : Placement} {hosts : IdSet}

theorem isProper_ofSample :
    (ofSample limits sample current hosts : SearchProblem α).IsProper :=
  isProper_ofModel (.build sample current hosts) current limits

theorem known_current (current : Placement) (hosts : IdSet) :
    ∀ entry ∈ current.pairs, entry.1 ∈ hosts.union current.hostIds := fun _ listed =>
  IdSet.mem_union.2 (.inr (Placement.mem_hostIds_of_mem_pairs listed))

/-- Every feasible placement is a complete assignment within the limits. -/
theorem admits_of_feasible (feasible : target.Feasible limits current hosts) :
    Admits (ofSample limits sample current hosts : SearchProblem α)
      ((Model.build sample current hosts : Model α).assignmentOf target) := by
  have numbered : (Model.build sample current hosts : Model α).IsNumbered :=
    Model.isNumbered_build sample current hosts
  constructor
  · constructor
    · apply Model.load_assignmentOf_le numbered
      rw [Model.partitions_build, ← feasible.partitions]
      exact Placement.countP_byPartition_le feasible.capacity
    · have moves := Model.apart_assignmentOf numbered
        (Model.partitions_build sample current hosts) feasible.partitions
        (known_current current hosts) feasible.known
      exact moves ▸ feasible.budget
  · exact Model.size_assignmentOf _ target
  · intro number bound
    refine Model.exists_hostAt_assignmentOf numbered ?_ feasible.known bound
    rw [feasible.partitions, Model.partitions_build]
  · exact Model.inRange_assignmentOf _ target

/-- Every complete assignment within the limits decodes to a feasible placement. -/
theorem feasible_decode {assignment : Assignment}
    (admits : Admits (ofSample limits sample current hosts : SearchProblem α) assignment) :
    ((Model.build sample current hosts : Model α).decode assignment).Feasible
      limits current hosts := by
  have numbered : (Model.build sample current hosts : Model α).IsNumbered :=
    Model.isNumbered_build sample current hosts
  have encoded := Model.assignmentOf_decode_eq numbered admits.size admits.inRange
  have single := Model.isSingle_decode (Model.build sample current hosts : Model α) assignment
  have partitions : ((Model.build sample current hosts : Model α).decode assignment).partitions =
      current.partitions := by
    apply IdSet.ext
    intro partition
    exact Model.mem_partitions_decode numbered admits.size admits.inRange admits.assigned
  have known : ∀ entry ∈ ((Model.build sample current hosts : Model α).decode assignment).pairs,
      entry.1 ∈ hosts.union current.hostIds :=
    fun _ listed => Model.mem_hosts_of_mem_decode numbered admits.size listed
  refine ⟨partitions, single, known, fun host held found => ?_, ?_⟩
  · rw [single.size_partitionsOn found, partitions]
    by_cases inside : host ∈ (Model.build sample current hosts : Model α).hosts
    · obtain ⟨number, bound, here⟩ := List.getElem_of_mem inside
      have load := Model.load_assignmentOf numbered
        ((Model.build sample current hosts : Model α).decode assignment)
        (List.getElem?_eq_some_iff.2 ⟨bound, here⟩)
      rw [encoded] at load
      exact load ▸ admits.capacity number
    · refine Nat.le_trans (Nat.le_of_eq (List.countP_eq_zero.2 fun partition _ here => ?_))
        (Nat.zero_le _)
      exact inside (known _ (Placement.mem_pairs_of_byPartition (beq_iff_eq.1 here)))
  · have moves := Model.apart_assignmentOf numbered
      (Model.partitions_build sample current hosts) partitions (known_current current hosts) known
    rw [encoded] at moves
    exact moves ▸ admits.budget

/-- The current assignment is admitted where the partition view of the placement keeps within
the capacity. -/
theorem admits_home
    (fits : ∀ host, current.byPartition.values.count host ≤ limits.perHost) :
    Admits (ofSample limits sample current hosts : SearchProblem α)
      ((Model.build sample current hosts : Model α).assignmentOf current) := by
  have numbered : (Model.build sample current hosts : Model α).IsNumbered :=
    Model.isNumbered_build sample current hosts
  constructor
  · constructor
    · apply Model.load_assignmentOf_le numbered
      intro host
      exact current.count_values_byPartition host ▸ fits host
    · exact Nat.le_trans (Nat.le_of_eq (Assignment.apart_self _)) (Nat.zero_le _)
  · exact Model.size_assignmentOf _ current
  · intro number bound
    exact Model.exists_hostAt_assignmentOf numbered
      (Model.partitions_build sample current hosts) (known_current current hosts) bound
  · exact Model.inRange_assignmentOf _ current

theorem exists_incumbent {solution : Solution α}
    (found : findPlacement limits sample current hosts = some solution) :
    ∃ assignment,
      (ofSample limits sample current hosts).run.incumbent =
        some (assignment, solution.estimate) ∧
      solution.placement = (Model.build sample current hosts : Model α).decode assignment ∧
      solution.moved = current.movedCount solution.placement ∧
      solution.exhaustive =
        !(ofSample limits sample current hosts : SearchProblem α).run.truncated := by
  obtain ⟨⟨assignment, estimate⟩, final, rfl⟩ := Option.map_eq_some_iff.1 found
  exact ⟨assignment, final, rfl, rfl, rfl⟩

/-- Where the current placement keeps within the capacity there is an answer. -/
theorem exists_findPlacement
    (fits : ∀ host, current.byPartition.values.count host ≤ limits.perHost) :
    ∃ solution : Solution α, findPlacement limits sample current hosts = some solution := by
  have seeded : (ofSample limits sample current hosts : SearchProblem α).seed.isSome :=
    Option.isSome_of_eq_some ((seed_eq_some_iff isProper_ofSample).2 ⟨admits_home fits, rfl⟩)
  have final : (ofSample limits sample current hosts : SearchProblem α).run.incumbent.isSome := by
    apply incumbent_run isProper_ofSample (fun incumbent => incumbent.isSome) _ seeded
    intro incumbent assignment _ _ _
    rfl
  obtain ⟨incumbent, found⟩ := Option.isSome_iff_exists.1 final
  exact ⟨_, Option.map_eq_some_iff.2 ⟨incumbent, found, rfl⟩⟩

/-- Wherever the search stopped, what it answers is feasible. -/
theorem feasible_of_found {solution : Solution α}
    (found : findPlacement limits sample current hosts = some solution) :
    solution.placement.Feasible limits current hosts := by
  obtain ⟨assignment, final, decoded, _⟩ := exists_incumbent found
  rw [decoded]
  exact feasible_decode (admits_run isProper_ofSample final).1

end SearchProblem

variable {α : Type} [Scalar α]

/-- Every answer is feasible and counts its moves, also where the node budget cut the search
short and whatever the comparisons of estimates say. -/
theorem findPlacement_feasible {limits : SearchLimits} {sample : Sample} {current : Placement}
    {hosts : IdSet} {solution : Solution α}
    (found : findPlacement limits sample current hosts = some solution) :
    solution.placement.Feasible limits current hosts ∧
      solution.moved = current.movedCount solution.placement ∧ solution.moved ≤ limits.moved := by
  obtain ⟨assignment, final, decoded, moves, _⟩ := SearchProblem.exists_incumbent found
  have admits := (SearchProblem.admits_run SearchProblem.isProper_ofSample final).1
  have feasible : solution.placement.Feasible limits current hosts := by
    rw [decoded]
    exact SearchProblem.feasible_decode admits
  refine ⟨feasible, moves, ?_⟩
  rw [moves]
  exact feasible.budget

/-- The one partition that is worth it has moved when the fifth node is one too many. -/
theorem findPlacement_feasible_truncated :
    let limits : SearchLimits := { perHost := 2, moved := 2, nodes := 4 }
    let key : GroupKey := { procedure := "pay", host := 200, scope := .single 1 }
    let sample := ((Sample.new 8).recordTransaction key 40 .far).2.reconcile
    let current := Placement.ofPairs [(100, 1), (100, 2)]
    ∃ solution : Solution ℚ, findPlacement limits sample current (.ofList [200]) = some solution ∧
      solution.placement = .ofPairs [(100, 2), (200, 1)] ∧ solution.exhaustive = false ∧
      solution.placement.Feasible limits current (.ofList [200]) ∧
      solution.moved = current.movedCount solution.placement ∧ solution.moved ≤ 2 := by
  intro limits key sample current
  have ordered : (SearchProblem.ofModel (.build sample current (.ofList [200]) : Model ℚ) current
      limits).order = [0, 1] :=
    (SearchProblem.branchingOrder_pair _ _).trans (if_pos (by decide +kernel))
  have answered : (findPlacement limits sample current (.ofList [200]) : Option (Solution ℚ)).map
      (fun solution => (solution.placement, solution.exhaustive)) =
        some (.ofPairs [(100, 2), (200, 1)], false) := by
    unfold findPlacement
    simp only [SearchProblem.run_of_order ordered (by decide +kernel)]
    decide +kernel
  obtain ⟨solution, found, answer⟩ := Option.map_eq_some_iff.1 answered
  obtain ⟨placed, truncated⟩ := Prod.mk.inj answer
  exact ⟨solution, found, placed, truncated, findPlacement_feasible found⟩

end Rebalance
