import Rebalance.Proofs.Search.Optimality

/-!
What a node budget changes. Searches that differ in their budgets only take the same steps until
the smaller budget runs out. From there on one of them stops, and the other can only improve the
incumbent. The nodes that were counted tell whether a search was cut short.
-/

namespace Rebalance

namespace SearchProblem

section
variable {α : Type} {problem : SearchProblem α} {state : SearchState α}

def withBudget (problem : SearchProblem α) (nodes : Nat) : SearchProblem α :=
  { problem with limits := { problem.limits with nodes } }

theorem overBudget_iff {visited : Nat} : problem.overBudget visited = true ↔
    0 < problem.limits.nodes ∧ problem.limits.nodes < visited := by
  unfold overBudget
  rw [Bool.and_eq_true, decide_eq_true_eq, decide_eq_true_eq]

theorem overBudget_of_withBudget {nodes visited : Nat}
    (wider : 0 < problem.limits.nodes ∧ problem.limits.nodes ≤ nodes ∨ nodes = 0)
    (spent : (problem.withBudget nodes).overBudget visited = true) :
    problem.overBudget visited = true := by
  obtain ⟨limited, exceeds⟩ := overBudget_iff.1 spent
  change 0 < nodes at limited
  change nodes < visited at exceeds
  rw [overBudget_iff]
  omega

/-- A search has counted at most one node more than its budget, and that one exactly if it was
cut short. -/
structure Metered (problem : SearchProblem α) (state : SearchState α) : Prop where
  most : state.nodes ≤ problem.limits.nodes + 1
  truncated_iff : state.truncated = true ↔ problem.limits.nodes < state.nodes

theorem Metered.exhausted (metered : Metered problem state) (running : state.truncated = false)
    (spent : problem.overBudget (state.nodes + 1) = true) :
    Metered problem { counted state with truncated := true } := by
  have exceeds := (overBudget_iff.1 spent).2
  have within : ¬ problem.limits.nodes < state.nodes := by
    rw [← metered.truncated_iff, running]
    exact Bool.false_ne_true
  refine ⟨?_, iff_of_true rfl exceeds⟩
  change state.nodes + 1 ≤ problem.limits.nodes + 1
  omega

theorem Metered.counted (limited : 0 < problem.limits.nodes)
    (running : state.truncated = false)
    (unspent : problem.overBudget (state.nodes + 1) = false) :
    Metered problem (counted state) := by
  have within : ¬ problem.limits.nodes < state.nodes + 1 := by
    intro exceeds
    rw [overBudget_iff.2 ⟨limited, exceeds⟩] at unspent
    cases unspent
  have still : (SearchProblem.counted state).truncated = false := running
  constructor
  · change state.nodes + 1 ≤ problem.limits.nodes + 1
    omega
  · rw [still]
    exact iff_of_false Bool.false_ne_true within

def answer (model : Model α) (current : Placement) (final : SearchState α) : Option (Solution α) :=
  final.incumbent.map fun incumbent =>
    let placement := model.decode incumbent.1
    { placement
      estimate := incumbent.2
      moved := current.movedCount placement
      exhaustive := !final.truncated
      nodes := final.nodes }

theorem Metered.of_answer {model : Model α} {current : Placement} {solution : Solution α}
    (metered : Metered problem state) (answered : answer model current state = some solution) :
    solution.nodes ≤ problem.limits.nodes + 1 ∧
      (solution.exhaustive = true ↔ solution.nodes ≤ problem.limits.nodes) := by
  obtain ⟨incumbent, _, rfl⟩ := Option.map_eq_some_iff.1 answered
  refine ⟨metered.most, ?_⟩
  change (!state.truncated) = true ↔ state.nodes ≤ problem.limits.nodes
  rw [Bool.not_eq_true', ← Bool.not_eq_true, metered.truncated_iff]
  exact Nat.not_lt

end

section
variable {α : Type} [Scalar α] {problem : SearchProblem α} {remaining rest : List Nat}
variable {partition : Nat} {state : SearchState α}

theorem branch_of_truncated (halted : state.truncated = true) :
    problem.branch remaining state = state := by
  rw [branch.eq_def, if_pos halted]

theorem branch_of_spent (running : state.truncated = false)
    (spent : problem.overBudget (state.nodes + 1) = true) :
    problem.branch remaining state = { counted state with truncated := true } := by
  rw [branch.eq_def, if_neg (Bool.eq_false_iff.1 running)]
  simp only [spent, if_true]
  rfl

theorem branch_of_unspent (running : state.truncated = false)
    (unspent : problem.overBudget (state.nodes + 1) = false) :
    problem.branch remaining state =
      if isHopeless state.incumbent (problem.model.objective state.assignment) then counted state
      else
        match remaining with
        | [] =>
          { counted state with
            incumbent := some (state.assignment, problem.model.objective state.assignment) }
        | partition :: rest => problem.explore partition rest (counted state) := by
  rw [branch.eq_def, if_neg (Bool.eq_false_iff.1 running)]
  simp only [unspent, Bool.false_eq_true, if_false]
  rfl

theorem metered_foldl_attempt
    (deeper : ∀ state, Metered problem state → Metered problem (problem.branch rest state))
    (metered : Metered problem state) (hosts : List Nat) :
    Metered problem (hosts.foldl (problem.attempt partition rest) state) := by
  apply List.foldlRecOn hosts _ metered
  intro between known host _
  unfold attempt
  split
  · exact known
  · split
    · -- Neither placing a partition nor taking it back counts a node.
      have placed : Metered problem (problem.place partition host between) :=
        ⟨known.most, known.truncated_iff⟩
      have visited := deeper _ placed
      exact ⟨visited.most, visited.truncated_iff⟩
    · exact known

theorem metered_visit (limited : 0 < problem.limits.nodes)
    (deeper : ∀ partition rest, remaining = partition :: rest →
      ∀ state, Metered problem state → Metered problem (problem.branch rest state))
    (metered : Metered problem state) : Metered problem (problem.branch remaining state) := by
  cases halted : state.truncated with
  | true => rwa [branch_of_truncated halted]
  | false =>
    cases spent : problem.overBudget (state.nodes + 1) with
    | true =>
      rw [branch_of_spent halted spent]
      exact metered.exhausted halted spent
    | false =>
      have counted := Metered.counted limited halted spent
      rw [branch_of_unspent halted spent]
      split
      · exact counted
      · cases remaining with
        | nil => exact ⟨counted.most, counted.truncated_iff⟩
        | cons partition rest => exact metered_foldl_attempt (deeper partition rest rfl) counted _

theorem metered_branch (limited : 0 < problem.limits.nodes) (metered : Metered problem state) :
    Metered problem (problem.branch remaining state) := by
  induction remaining generalizing state with
  | nil =>
    apply metered_visit limited _ metered
    rintro _ _ ⟨⟩
  | cons partition rest ih =>
    apply metered_visit limited _ metered
    rintro _ _ ⟨⟩
    exact fun _ => ih

/-- The search keeps to its budget but for the node at which it is cut short. -/
theorem metered_run (limited : 0 < problem.limits.nodes) : Metered problem problem.run := by
  have start : Metered problem problem.start :=
    ⟨Nat.zero_le _, iff_of_false Bool.false_ne_true (Nat.not_lt_zero _)⟩
  unfold run
  simp only
  split
  · exact start
  · exact metered_branch limited start

end

variable {K : Type} [ExactField K] {problem : SearchProblem K} {remaining rest : List Nat}
variable {partition : Nat} {state other : SearchState K}
variable {first second third : Option (Assignment × K)}

def Improves (before after : Option (Assignment × K)) : Prop :=
  ∀ incumbent, before = some incumbent → ∃ better, after = some better ∧ better.2 ≤ incumbent.2

theorem Improves.refl (incumbent : Option (Assignment × K)) : Improves incumbent incumbent :=
  fun best same => ⟨best, same, le_rfl⟩

theorem Improves.trans (earlier : Improves first second) (later : Improves second third) :
    Improves first third := by
  intro incumbent same
  obtain ⟨better, between, lower⟩ := earlier incumbent same
  obtain ⟨best, final, lowest⟩ := later better between
  exact ⟨best, final, lowest.trans lower⟩

theorem improves_of_hopeful {assignment : Assignment} {estimate : K}
    (hopeful : isHopeless first estimate = false) :
    Improves first (some (assignment, estimate)) := by
  intro incumbent same
  rw [same, not_isHopeless_some] at hopeful
  exact ⟨_, rfl, hopeful.le.trans (sub_share_le _)⟩

theorem improves_attempt
    (deeper : ∀ state, Improves state.incumbent (problem.branch rest state).incumbent)
    (state : SearchState K) (host : Nat) :
    Improves state.incumbent (problem.attempt partition rest state host).incumbent := by
  unfold attempt
  split
  · exact .refl _
  · split
    · exact deeper (problem.place partition host state)
    · exact .refl _

theorem improves_branch (problem : SearchProblem K) (remaining : List Nat)
    (state : SearchState K) :
    Improves state.incumbent (problem.branch remaining state).incumbent := by
  induction remaining generalizing state with
  | nil =>
    have visit := problem.visit_branch [] state
    generalize problem.branch [] state = after at visit ⊢
    cases visit with
    | stopped | exhausted | pruned => exact .refl _
    | leaf running hopeful => exact improves_of_hopeful hopeful
  | cons partition rest ih =>
    have visit := problem.visit_branch (partition :: rest) state
    generalize problem.branch (partition :: rest) state = after at visit ⊢
    cases visit with
    | stopped | exhausted | pruned => exact .refl _
    | inner =>
      refine List.foldlRecOn
        (motive := fun after : SearchState K => Improves state.incumbent after.incumbent)
        (problem.choices.getD partition []) _ (.refl _) ?_
      exact fun between known host _ => known.trans (improves_attempt ih between host)

/-- How far a search has come by the time that the same search with a smaller budget stands at
`state`: just as far, or beyond the point at which that one was cut short. -/
inductive Overtakes (state : SearchState K) : SearchState K → Prop where
  | level : Overtakes state state
  | beyond {other : SearchState K} (halted : state.truncated = true)
      (improves : Improves state.incumbent other.incumbent) : Overtakes state other

/-- What overtakes a search answers where that one does, and the same if that one was not cut
short. -/
theorem Overtakes.of_answer {model : Model K} {current : Placement} {solution : Solution K}
    (overtakes : Overtakes state other) (answered : answer model current state = some solution) :
    ∃ better, answer model current other = some better ∧ better.estimate ≤ solution.estimate ∧
      (solution.exhaustive = true → better = solution) := by
  cases overtakes with
  | level => exact ⟨solution, answered, le_rfl, fun _ => rfl⟩
  | beyond halted improves =>
    obtain ⟨incumbent, found, rfl⟩ := Option.map_eq_some_iff.1 answered
    obtain ⟨better, final, lower⟩ := improves incumbent found
    refine ⟨_, congrArg (Option.map _) final, lower, fun exhaustive => ?_⟩
    change (!state.truncated) = true at exhaustive
    rw [halted] at exhaustive
    cases exhaustive

section
variable {nodes : Nat}

theorem Overtakes.attempt
    (deeper : ∀ state, Overtakes (problem.branch rest state)
      ((problem.withBudget nodes).branch rest state))
    (overtakes : Overtakes state other) (host : Nat) :
    Overtakes (problem.attempt partition rest state host)
      ((problem.withBudget nodes).attempt partition rest other host) := by
  cases overtakes with
  | level =>
    unfold SearchProblem.attempt
    by_cases halted : state.truncated = true
    · rw [if_pos halted, if_pos halted]
      exact .level
    · rw [if_neg halted, if_neg halted]
      by_cases allowed : problem.allows state partition host = true
      · rw [if_pos allowed,
          if_pos (show (problem.withBudget nodes).allows state partition host = true from allowed)]
        have below := deeper (problem.place partition host state)
        change Overtakes (problem.unplace partition host _) (problem.unplace partition host
          ((problem.withBudget nodes).branch rest (problem.place partition host state)))
        generalize problem.branch rest _ = after at below ⊢
        generalize (problem.withBudget nodes).branch rest _ = further at below ⊢
        cases below with
        | level => exact .level
        | beyond halted improves => exact .beyond halted improves
      · have barred : ¬ (problem.withBudget nodes).allows state partition host = true := allowed
        rw [if_neg allowed, if_neg barred]
        exact .level
  | beyond halted improves =>
    -- The search that was cut short only unwinds, while the other one goes on.
    have unwound : problem.attempt partition rest state host = state := by
      rw [SearchProblem.attempt, if_pos halted]
    rw [unwound]
    exact .beyond halted (improves.trans (improves_attempt (improves_branch _ rest) other host))

theorem Overtakes.foldl_attempt
    (deeper : ∀ state, Overtakes (problem.branch rest state)
      ((problem.withBudget nodes).branch rest state))
    (overtakes : Overtakes state other) (hosts : List Nat) :
    Overtakes (hosts.foldl (problem.attempt partition rest) state)
      (hosts.foldl ((problem.withBudget nodes).attempt partition rest) other) := by
  induction hosts generalizing state other with
  | nil => exact overtakes
  | cons host hosts ih => exact ih (overtakes.attempt deeper host)

/-- A visit with the smaller budget is one with the larger one up to where it is cut short, if
that is so one level down. -/
theorem overtakes_visit
    (wider : 0 < problem.limits.nodes ∧ problem.limits.nodes ≤ nodes ∨ nodes = 0)
    (deeper : ∀ partition rest, remaining = partition :: rest → ∀ state,
      Overtakes (problem.branch rest state) ((problem.withBudget nodes).branch rest state))
    (state : SearchState K) :
    Overtakes (problem.branch remaining state)
      ((problem.withBudget nodes).branch remaining state) := by
  cases halted : state.truncated with
  | true =>
    rw [branch_of_truncated halted, branch_of_truncated halted]
    exact .level
  | false =>
    cases spent : problem.overBudget (state.nodes + 1) with
    | true =>
      rw [branch_of_spent halted spent]
      exact .beyond rfl (improves_branch (problem.withBudget nodes) remaining state)
    | false =>
      have unspent : (problem.withBudget nodes).overBudget (state.nodes + 1) = false := by
        rw [Bool.eq_false_iff] at spent ⊢
        exact fun exceeds => spent (overBudget_of_withBudget wider exceeds)
      rw [branch_of_unspent halted spent, branch_of_unspent halted unspent]
      change Overtakes _ (if isHopeless state.incumbent (problem.model.objective state.assignment)
        then counted state else _)
      split
      · exact .level
      · cases remaining with
        | nil => exact .level
        | cons partition rest => exact .foldl_attempt (deeper partition rest rfl) .level _

theorem overtakes_branch
    (wider : 0 < problem.limits.nodes ∧ problem.limits.nodes ≤ nodes ∨ nodes = 0)
    (remaining : List Nat) (state : SearchState K) :
    Overtakes (problem.branch remaining state)
      ((problem.withBudget nodes).branch remaining state) := by
  induction remaining generalizing state with
  | nil =>
    apply overtakes_visit wider
    rintro _ _ ⟨⟩
  | cons partition rest ih =>
    apply overtakes_visit wider
    rintro _ _ ⟨⟩
    exact ih

theorem overtakes_run
    (wider : 0 < problem.limits.nodes ∧ problem.limits.nodes ≤ nodes ∨ nodes = 0) :
    Overtakes problem.run (problem.withBudget nodes).run := by
  unfold run
  change Overtakes _ (if problem.model.partitions.length >
    problem.model.hosts.length * problem.limits.perHost % Nat.pow 2 64 then problem.start else _)
  simp only
  split
  · exact .level
  · exact overtakes_branch wider problem.order problem.start

end

end SearchProblem

variable {K : Type} [ExactField K]

/-- Where a search with a node budget answers, so does one with a larger budget or none: with an
estimate that is no higher, and with the same answer if the first one was not cut short. Whether
it was is told by the nodes that it counted. -/
theorem findPlacement_budget_mono (limits : SearchLimits) (sample : Sample) (current : Placement)
    (hosts : IdSet) {nodes : Nat} (wider : 0 < limits.nodes ∧ limits.nodes ≤ nodes ∨ nodes = 0)
    {solution : Solution K} (found : findPlacement limits sample current hosts = some solution) :
    (∃ better : Solution K,
      findPlacement { limits with nodes } sample current hosts = some better ∧
        better.estimate ≤ solution.estimate ∧ (solution.exhaustive = true → better = solution)) ∧
      (0 < limits.nodes → solution.nodes ≤ limits.nodes + 1 ∧
        (solution.exhaustive = true ↔ solution.nodes ≤ limits.nodes)) := by
  let problem : SearchProblem K := .ofSample limits sample current hosts
  have overtakes : SearchProblem.Overtakes problem.run (problem.withBudget nodes).run :=
    SearchProblem.overtakes_run wider
  refine ⟨overtakes.of_answer found, fun limited => ?_⟩
  have metered : SearchProblem.Metered problem problem.run := SearchProblem.metered_run limited
  exact metered.of_answer found

/-- The second node leaves the partition where it is. It is the third that would take it to the
host that pays from afar. -/
theorem findPlacement_budget_mono_twoNodes :
    let limits : SearchLimits := { perHost := 3, moved := 1, nodes := 2 }
    let key : GroupKey := { procedure := "pay", host := 200, scope := .single 1 }
    let sample := ((Sample.new 8).recordTransaction key 40 .far).2.reconcile
    let current := Placement.ofPairs [(100, 1)]
    let hosts : IdSet := .ofList [200]
    (0 < limits.nodes ∧ limits.nodes ≤ 3 ∨ 3 = 0) ∧
      ∃ solution : Solution ℚ, findPlacement limits sample current hosts = some solution ∧
        solution.moved = 0 ∧
          (∃ better : Solution ℚ,
            findPlacement { limits with nodes := 3 } sample current hosts = some better ∧
              better.estimate ≤ solution.estimate ∧
                (solution.exhaustive = true → better = solution)) ∧
            (0 < limits.nodes → solution.nodes ≤ limits.nodes + 1 ∧
              (solution.exhaustive = true ↔ solution.nodes ≤ limits.nodes)) := by
  intro limits key sample current hosts
  have wider : 0 < limits.nodes ∧ limits.nodes ≤ 3 ∨ 3 = 0 := by decide
  have stays : (findPlacement limits sample current hosts : Option (Solution ℚ)).map (·.moved) =
      some 0 := by decide +kernel
  obtain ⟨solution, found, kept⟩ := Option.map_eq_some_iff.1 stays
  exact ⟨wider, solution, found, kept,
    findPlacement_budget_mono limits sample current hosts wider found⟩

/-- With the third node the partition moves, and nothing is left to try. -/
example :
    let key : GroupKey := { procedure := "pay", host := 200, scope := .single 1 }
    let sample := ((Sample.new 8).recordTransaction key 40 .far).2.reconcile
    let answer (nodes : Nat) : Option (Solution ℚ) :=
      findPlacement { perHost := 3, moved := 1, nodes } sample (.ofPairs [(100, 1)]) (.ofList [200])
    [2, 3, 4].map (fun nodes => (answer nodes).map fun solution =>
        (solution.estimate, solution.exhaustive, solution.nodes)) =
      [some (40, false, 3), some (20, true, 3), some (20, true, 3)] := by
  decide +kernel

end Rebalance
