import Rebalance.Proofs.Placement.Hosting
import Rebalance.Proofs.Search.Budget

/-!
No move without a gain of its own. The search tries the present host of a partition before any
other. So whatever takes one partition of an accepted assignment back home was visited before
that assignment, or given up as no better than the incumbent of the time. In exact arithmetic an
answer is therefore strictly better than any placement that differs from it in sending one of its
moves back, wherever a node budget stops the search.
-/

namespace Rebalance

namespace SearchProblem

section
variable {α : Type} {problem : SearchProblem α} {rest : List Nat}
variable {partition number host : Nat} {state : SearchState α} {assignment target : Assignment}

def TriesHomeFirst (problem : SearchProblem α) : Prop :=
  ∀ partition < problem.model.partitions.length, ∃ home others,
    problem.home.hostAt partition = some home ∧ problem.choices.getD partition [] = home :: others

/-- A complete assignment within the limits that takes home a partition which `assignment` puts
elsewhere, and otherwise keeps to what that one has chosen. -/
structure Withdraws (problem : SearchProblem α) (assignment : Assignment) (partition : Nat)
    (target : Assignment) : Prop where
  admits : Admits problem target
  away : ∃ host, assignment.hostAt partition = some host ∧
    problem.home.hostAt partition ≠ some host
  home : target.hostAt partition = problem.home.hostAt partition
  kept : ∀ number ≠ partition, ∀ host, assignment.hostAt number = some host →
    target.hostAt number = some host

/-- What takes the partition home that was placed last, extends what was chosen before it. -/
theorem Withdraws.extends_of_last (tracks : Tracks problem (partition :: rest) state)
    (withdraws : Withdraws problem (problem.place partition host state).assignment partition
      target) : target.Extends state.assignment := by
  have ⟨bound, fresh⟩ := tracks.head
  intro number other chosen
  have differs : number ≠ partition := by
    rintro rfl
    rw [fresh] at chosen
    cases chosen
  apply withdraws.kept number differs
  change Assignment.hostAt (state.assignment.setIfInBounds partition (some host)) number = _
  rw [Assignment.hostAt_set bound, if_neg differs]
  exact chosen

/-- What takes another partition home does so before the last one was placed, too. -/
theorem Withdraws.of_earlier (tracks : Tracks problem (partition :: rest) state)
    (earlier : number ≠ partition)
    (withdraws : Withdraws problem (problem.place partition host state).assignment number target) :
    Withdraws problem state.assignment number target := by
  have ⟨bound, fresh⟩ := tracks.head
  have unchanged (other : Nat) (differs : other ≠ partition) :
      (problem.place partition host state).assignment.hostAt other =
        state.assignment.hostAt other := by
    change Assignment.hostAt (state.assignment.setIfInBounds partition (some host)) other = _
    rw [Assignment.hostAt_set bound, if_neg differs]
  refine ⟨withdraws.admits, unchanged number earlier ▸ withdraws.away, withdraws.home, ?_⟩
  intro other differs known chosen
  apply withdraws.kept other differs
  have placed : other ≠ partition := by
    rintro rfl
    rw [fresh] at chosen
    cases chosen
  rw [unchanged other placed]
  exact chosen

end

variable {K : Type} [ExactField K] {problem : SearchProblem K} {remaining rest : List Nat}
variable {partition host : Nat} {state after : SearchState K} {assignment : Assignment}
variable {first second incumbent : Option (Assignment × K)} {estimate bound lower : K}

theorem sub_share_mono (le : lower ≤ estimate) :
    lower - |lower| * improvementShare ≤ estimate - |estimate| * improvementShare := by
  have share : (improvementShare : K) ≤ 1 := by
    rw [improvementShare_eq]
    norm_num
  have gap : |estimate| - |lower| ≤ estimate - lower :=
    (abs_sub_abs_le_abs_sub estimate lower).trans_eq (abs_of_nonneg (sub_nonneg.2 le))
  have scaled : (|estimate| - |lower|) * improvementShare ≤ estimate - lower :=
    calc (|estimate| - |lower|) * improvementShare
        ≤ (estimate - lower) * improvementShare :=
          mul_le_mul_of_nonneg_right gap improvementShare_nonneg
      _ ≤ estimate - lower := mul_le_of_le_one_right (sub_nonneg.2 le) share
  linarith

theorem isHopeless_of_improves (improves : Improves first second)
    (hopeless : isHopeless first bound = true) : isHopeless second bound = true := by
  cases first with
  | none => cases hopeless
  | some incumbent =>
    obtain ⟨better, rfl, lower⟩ := improves incumbent rfl
    rw [isHopeless_some] at hopeless ⊢
    exact (sub_share_mono lower).trans hopeless

def Settled (problem : SearchProblem K) (assignment : Assignment)
    (incumbent : Option (Assignment × K)) : Prop :=
  ∀ partition target, Withdraws problem assignment partition target →
    isHopeless incumbent (problem.model.objective target) = true

/-- Every complete assignment that goes on from here with this partition at home is given up. -/
def Cleared (problem : SearchProblem K) (partition : Nat) (assignment : Assignment)
    (incumbent : Option (Assignment × K)) : Prop :=
  ∀ target, Admits problem target → target.Extends assignment →
    target.hostAt partition = problem.home.hostAt partition →
      isHopeless incumbent (problem.model.objective target) = true

def Stands (problem : SearchProblem K) (incumbent : Option (Assignment × K)) : Prop :=
  ∀ assignment estimate, incumbent = some (assignment, estimate) → ∀ partition target,
    Withdraws problem assignment partition target → estimate < problem.model.objective target

theorem Settled.improve (settled : Settled problem assignment first)
    (improves : Improves first second) : Settled problem assignment second :=
  fun partition target withdraws =>
    isHopeless_of_improves improves (settled partition target withdraws)

theorem Cleared.improve (cleared : Cleared problem partition assignment first)
    (improves : Improves first second) : Cleared problem partition assignment second :=
  fun target admits agree home => isHopeless_of_improves improves (cleared target admits agree home)

/-- A host may be tried next if it is the home, or all is given up that has the partition there. -/
theorem Settled.place (tracks : Tracks problem (partition :: rest) state)
    (settled : Settled problem state.assignment state.incumbent)
    (cleared : problem.home.hostAt partition ≠ some host →
      Cleared problem partition state.assignment state.incumbent) :
    Settled problem (problem.place partition host state).assignment state.incumbent := by
  intro number target withdraws
  by_cases last : number = partition
  · subst last
    obtain ⟨other, chosen, away⟩ := withdraws.away
    change Assignment.hostAt (state.assignment.setIfInBounds number (some host)) number = _
      at chosen
    rw [Assignment.hostAt_set tracks.head.1, if_pos rfl, Option.some.injEq] at chosen
    subst chosen
    exact cleared away target withdraws.admits (withdraws.extends_of_last tracks) withdraws.home
  · exact settled number target (withdraws.of_earlier tracks last)

theorem Settled.stands (settled : Settled problem assignment incumbent)
    (hopeful : isHopeless incumbent (problem.model.objective assignment) = false) :
    Stands problem (some (assignment, problem.model.objective assignment)) := by
  intro _ _ same partition target withdraws
  cases same
  by_contra above
  have hopeless := isHopeless_of_le (settled partition target withdraws) (not_lt.1 above)
  rw [hopeful] at hopeless
  cases hopeless

/-- Where the search goes on after it tried the home of a partition, nothing is left to hope for
that has the partition there. -/
theorem cleared_attempt (proper : problem.IsProper) (estimated : problem.model.IsEstimate)
    (tracks : Tracks problem (partition :: rest) state) (within : Within problem state.assignment)
    (home : problem.home.hostAt partition = some host)
    (running : (problem.attempt partition rest state host).truncated = false) :
    Cleared problem partition state.assignment
      (problem.attempt partition rest state host).incumbent := by
  intro target admits agree returned
  have inside := tracks.bounded partition List.mem_cons_self
  have chosen : target.hostAt partition = some host := returned.trans home
  have listed : host ∈ problem.choices.getD partition [] := by
    rw [(proper.choices partition inside).mem_iff, List.mem_range]
    exact admits.inRange partition host chosen
  have only : ∀ other ∈ [host], other ∈ problem.choices.getD partition [] :=
    fun other member => List.mem_singleton.1 member ▸ listed
  exact isHopeless_foldl_attempt proper admits tracks within agree chosen only List.mem_cons_self
    (fun _ => isHopeless_branch proper estimated admits) running

/-- Visits with these partitions still to assign leave a standing incumbent, provided that all is
given up which takes one of those assigned before back home. -/
def LeavesStanding (problem : SearchProblem K) (remaining : List Nat) : Prop :=
  ∀ state, Tracks problem remaining state → Within problem state.assignment →
    Stands problem state.incumbent →
    (state.truncated = false → Settled problem state.assignment state.incumbent) →
      Stands problem (problem.branch remaining state).incumbent

/-- Trying a host leaves a standing incumbent, if visits one level down do so. -/
theorem stands_attempt (deeper : LeavesStanding problem rest)
    (tracks : Tracks problem (partition :: rest) state) (within : Within problem state.assignment)
    (inside : host < problem.model.hosts.length) (stands : Stands problem state.incumbent)
    (settled : state.truncated = false → Settled problem state.assignment state.incumbent)
    (cleared : problem.home.hostAt partition ≠ some host → state.truncated = false →
      Cleared problem partition state.assignment state.incumbent) :
    Stands problem (problem.attempt partition rest state host).incumbent := by
  unfold attempt
  split
  · exact stands
  · next going =>
    have running := Bool.eq_false_iff.2 going
    split
    · next allowed =>
      apply deeper _ (tracks.place inside) (within.place tracks inside allowed) stands
      exact fun _ => (settled running).place tracks fun away => cleared away running
    · exact stands

/-- What holds between two hosts that are tried for a partition, once its home has been tried. -/
structure Between (problem : SearchProblem K) (partition : Nat) (start state : SearchState K) :
    Prop where
  same : SameBoard start state
  stands : Stands problem state.incumbent
  settled : state.truncated = false → Settled problem start.assignment state.incumbent
  cleared : state.truncated = false → Cleared problem partition start.assignment state.incumbent

/-- Home is tried with nothing given up yet, for a partition at home is not away. -/
theorem between_home (proper : problem.IsProper) (estimated : problem.model.IsEstimate)
    (deeper : LeavesStanding problem rest) (tracks : Tracks problem (partition :: rest) state)
    (within : Within problem state.assignment) (inside : host < problem.model.hosts.length)
    (stands : Stands problem state.incumbent)
    (settled : Settled problem state.assignment state.incumbent)
    (home : problem.home.hostAt partition = some host) :
    Between problem partition state (problem.attempt partition rest state host) where
  same := sameBoard_attempt tracks inside fun _ => sameBoard_branch proper
  stands := stands_attempt deeper tracks within inside stands (fun _ => settled)
    fun away => absurd home away
  settled _ := settled.improve (improves_attempt (improves_branch problem rest) state host)
  cleared := cleared_attempt proper estimated tracks within home

theorem Between.attempt {start : SearchState K} (proper : problem.IsProper)
    (deeper : LeavesStanding problem rest) (tracks : Tracks problem (partition :: rest) start)
    (within : Within problem start.assignment) (inside : host < problem.model.hosts.length)
    (between : Between problem partition start state) :
    Between problem partition start (problem.attempt partition rest state host) := by
  have here : Tracks problem (partition :: rest) state := tracks.of_sameBoard between.same
  have kept := between.same.assignment
  have improves : Improves state.incumbent (problem.attempt partition rest state host).incumbent :=
    improves_attempt (improves_branch problem rest) state host
  constructor
  · apply between.same.trans
    exact sameBoard_attempt here inside fun _ => sameBoard_branch proper
  · exact stands_attempt deeper here (kept ▸ within) inside between.stands
      (fun running => kept ▸ between.settled running)
      fun _ running => kept ▸ between.cleared running
  · intro running
    exact (between.settled (running_of_attempt running)).improve improves
  · intro running
    exact (between.cleared (running_of_attempt running)).improve improves

theorem leavesStanding (proper : problem.IsProper) (estimated : problem.model.IsEstimate)
    (homeFirst : problem.TriesHomeFirst) (remaining : List Nat) :
    LeavesStanding problem remaining := by
  induction remaining with
  | nil =>
    intro state _ _ stands settled
    have visit := problem.visit_branch [] state
    generalize problem.branch [] state = after at visit ⊢
    cases visit with
    | stopped | exhausted | pruned => exact stands
    | leaf running hopeful => exact (settled running).stands hopeful
  | cons partition rest ih =>
    intro state tracks within stands settled
    have visit := problem.visit_branch (partition :: rest) state
    generalize problem.branch (partition :: rest) state = after at visit ⊢
    cases visit with
    | stopped | exhausted | pruned => exact stands
    | inner running hopeful =>
      have bound := tracks.bounded partition List.mem_cons_self
      obtain ⟨home, others, atHome, choices⟩ := homeFirst partition bound
      have inside : ∀ host ∈ home :: others, host < problem.model.hosts.length :=
        fun host listed => proper.lt_of_mem_choices bound (choices ▸ listed)
      have here : Tracks problem (partition :: rest) (counted state) :=
        tracks.of_sameBoard ⟨rfl, rfl, rfl⟩
      have first : Between problem partition (counted state)
          (problem.attempt partition rest (counted state) home) :=
        between_home proper estimated ih here within (inside home List.mem_cons_self) stands
          (settled running) atHome
      unfold explore
      rw [choices, List.foldl_cons]
      refine Between.stands (List.foldlRecOn others _ first fun between known host listed => ?_)
      exact known.attempt proper ih here within (inside host (List.mem_cons_of_mem home listed))

/-- Whatever the search ends with is better than what takes one of its partitions home. -/
theorem stands_run (proper : problem.IsProper) (estimated : problem.model.IsEstimate)
    (homeFirst : problem.TriesHomeFirst) : Stands problem problem.run.incumbent := by
  have seeded : Stands problem problem.seed := by
    intro assignment estimate same partition target withdraws
    obtain ⟨_, kept⟩ := (seed_eq_some_iff proper).1 same
    cases kept
    obtain ⟨host, chosen, away⟩ := withdraws.away
    exact absurd chosen away
  unfold run
  simp only
  split
  · exact seeded
  · apply leavesStanding proper estimated homeFirst problem.order _ (tracks_start proper)
      (within_start problem) seeded
    intro _ partition target withdraws
    obtain ⟨host, chosen, _⟩ := withdraws.away
    rw [start, Assignment.hostAt_replicate] at chosen
    cases chosen

section
variable {α : Type} [Scalar α] {limits : SearchLimits} {sample : Sample}
variable {current target : Placement} {hosts : IdSet} {partition : PartitionId} {home : HostId}

theorem triesHomeFirst_ofSample :
    (ofSample limits sample current hosts : SearchProblem α).TriesHomeFirst := by
  intro partition bound
  have numbered : (Model.build sample current hosts : Model α).IsNumbered :=
    Model.isNumbered_build sample current hosts
  obtain ⟨host, atHome⟩ := Model.exists_hostAt_assignmentOf numbered
    (Model.partitions_build sample current hosts) (known_current current hosts) bound
  have choices := choices_ofModel (Model.build sample current hosts : Model α) current limits bound
  rw [atHome] at choices
  exact ⟨host, _, atHome, choices⟩

theorem feasible_insert (feasible : target.Feasible limits current hosts)
    (lived : current.byPartition.get? partition = some home)
    (room : ((target.partitionsOn home).getD .empty).size < limits.perHost) :
    (target.insert home partition).Feasible limits current hosts := by
  have placed : partition ∈ target.partitions := by
    rw [feasible.partitions, ← Placement.isSome_byPartition, lived]
    rfl
  constructor
  · apply IdSet.ext
    intro other
    rw [Placement.mem_partitions_insert, ← feasible.partitions]
    refine or_iff_right_of_imp ?_
    rintro rfl
    exact placed
  · exact feasible.single.insert home partition
  · rintro ⟨host, other⟩ listed
    rcases Placement.mem_pairs_insert.1 listed with ⟨rfl, rfl⟩ | ⟨old, _⟩
    · exact known_current current hosts _ (Placement.mem_pairs_of_byPartition lived)
    · exact feasible.known _ old
  · intro host held found
    have size := Placement.size_of_partitionsOn_insert found
    split at size
    · next here =>
      subst here
      exact size.trans room
    · cases before : target.partitionsOn host with
      | none =>
        rw [before] at size
        exact size.trans (Nat.zero_le _)
      | some old =>
        rw [before] at size
        exact size.trans (feasible.capacity host old before)
  · refine le_trans ?_ feasible.budget
    rw [Placement.movedCount_eq_countP, Placement.movedCount_eq_countP]
    apply List.countP_mono_left
    intro other _ moved
    rw [feasible.single.byPartition_insert] at moved
    split at moved
    · next here => simp [here, lived] at moved
    · exact moved

/-- By number, too, sending a partition back takes it home and keeps the rest. -/
theorem exists_withdraws (feasible : target.Feasible limits current hosts)
    (lived : current.byPartition.get? partition = some home)
    (left : target.byPartition.get? partition ≠ some home)
    (room : ((target.partitionsOn home).getD .empty).size < limits.perHost) :
    let model : Model α := Model.build sample current hosts
    ∃ number, Withdraws (ofSample limits sample current hosts : SearchProblem α)
      (model.assignmentOf target) number (model.assignmentOf (target.insert home partition)) := by
  intro model
  have numbered : model.IsNumbered := Model.isNumbered_build sample current hosts
  have placed : partition ∈ current.partitions := by
    rw [← Placement.isSome_byPartition, lived]
    rfl
  obtain ⟨number, bound, listed⟩ := List.getElem_of_mem (IdSet.mem_def.1 placed)
  have here : model.partitions[number]? = some partition :=
    List.getElem?_eq_some_iff.2 ⟨bound, listed⟩
  obtain ⟨host, lives⟩ := Placement.exists_byPartition
    (show partition ∈ target.partitions from feasible.partitions ▸ placed)
  have known : host ∈ model.hosts :=
    feasible.known _ (Placement.mem_pairs_of_byPartition lives)
  obtain ⟨index, encoded⟩ := Model.exists_hostNumber numbered known
  have hosted (placement : Placement) : (model.assignmentOf placement).hostAt number =
      (placement.byPartition.get? partition).bind model.hostNumber := by
    rw [Model.hostAt_assignmentOf, here, Option.bind_some]
  refine ⟨number, admits_of_feasible (feasible_insert feasible lived room), ?_, ?_, ?_⟩
  · refine ⟨index, by rw [hosted, lives, Option.bind_some, encoded], fun same => left ?_⟩
    change (model.assignmentOf current).hostAt number = _ at same
    rw [hosted, lived, Option.bind_some] at same
    rw [lives, Model.hostNumber_inj numbered encoded same]
  · change _ = (model.assignmentOf current).hostAt number
    rw [hosted, hosted, feasible.single.byPartition_insert, if_pos rfl, lived]
  · intro other differs known chosen
    rw [Model.hostAt_assignmentOf] at chosen ⊢
    obtain ⟨further, there, rest⟩ := Option.bind_eq_some_iff.1 chosen
    have apart : further ≠ partition := by
      rintro rfl
      obtain ⟨inside, same⟩ := List.getElem?_eq_some_iff.1 there
      exact differs (numbered.partitions.getElem_inj_iff.1 (same.trans listed.symm))
    rw [there, Option.bind_some, feasible.single.byPartition_insert, if_neg apart]
    exact rest

end

end SearchProblem

variable {K : Type} [ExactField K]

/-- A partition that an answer moves away from home, where there would be room for it, is moved
for a gain: with that one partition sent back, and all else as in the answer, the objective is
strictly larger. -/
theorem objective_lt_of_sentBack (limits : SearchLimits) (sample : Sample) (current : Placement)
    (hosts : IdSet) {solution : Solution K}
    (found : findPlacement limits sample current hosts = some solution)
    {partition : PartitionId} {home : HostId}
    (lived : current.byPartition.get? partition = some home)
    (left : solution.placement.byPartition.get? partition ≠ some home)
    (room : ((solution.placement.partitionsOn home).getD .empty).size < limits.perHost) :
    let model : Model K := Model.build sample current hosts
    model.objective (model.assignmentOf solution.placement) <
      model.objective (model.assignmentOf (solution.placement.insert home partition)) := by
  intro model
  let problem : SearchProblem K := .ofSample limits sample current hosts
  have proper : problem.IsProper := SearchProblem.isProper_ofSample
  obtain ⟨assignment, final, decoded, _⟩ := SearchProblem.exists_incumbent found
  obtain ⟨admits, scored⟩ := SearchProblem.admits_run proper final
  have encoded : model.assignmentOf solution.placement = assignment := by
    rw [decoded]
    exact Model.assignmentOf_decode_eq (Model.isNumbered_build sample current hosts) admits.size
      admits.inRange
  have sendsBack : ∃ number, SearchProblem.Withdraws problem
      (model.assignmentOf solution.placement) number
      (model.assignmentOf (solution.placement.insert home partition)) :=
    SearchProblem.exists_withdraws (SearchProblem.feasible_of_found found) lived left room
  obtain ⟨number, withdraws⟩ := sendsBack
  have stands : SearchProblem.Stands problem problem.run.incumbent :=
    SearchProblem.stands_run proper (Model.isEstimate_build sample current hosts)
      SearchProblem.triesHomeFirst_ofSample
  rw [encoded] at withdraws ⊢
  exact scored ▸ stands assignment solution.estimate final number _ withdraws

/-- The partition moves to the host that pays for it from afar, while there is room at home. -/
theorem objective_lt_of_sentBack_farPayment :
    let limits : SearchLimits := { perHost := 3, moved := 1, nodes := 3 }
    let key : GroupKey := { procedure := "pay", host := 200, scope := .single 1 }
    let sample := ((Sample.new 8).recordTransaction key 40 .far).2.reconcile
    let current := Placement.ofPairs [(100, 1)]
    let hosts : IdSet := .ofList [200]
    let model : Model ℚ := Model.build sample current hosts
    ∃ solution : Solution ℚ, findPlacement limits sample current hosts = some solution ∧
      current.byPartition.get? 1 = some 100 ∧
        solution.placement.byPartition.get? 1 ≠ some 100 ∧
          ((solution.placement.partitionsOn 100).getD .empty).size < limits.perHost ∧
            model.objective (model.assignmentOf solution.placement) <
              model.objective (model.assignmentOf (solution.placement.insert 100 1)) := by
  intro limits key sample current hosts model
  have answered : (findPlacement limits sample current hosts : Option (Solution ℚ)).map
      (·.placement) = some (.ofPairs [(200, 1)]) := by decide +kernel
  obtain ⟨solution, found, moved⟩ := Option.map_eq_some_iff.1 answered
  have lived : current.byPartition.get? 1 = some 100 := by decide
  have left : solution.placement.byPartition.get? 1 ≠ some 100 := by
    rw [moved]
    decide
  have room : ((solution.placement.partitionsOn 100).getD .empty).size < limits.perHost := by
    rw [moved]
    decide
  exact ⟨solution, found, lived, left, room,
    objective_lt_of_sentBack limits sample current hosts found lived left room⟩

end Rebalance
