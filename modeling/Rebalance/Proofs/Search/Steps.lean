import Mathlib.Data.List.Nodup
import Rebalance.Proofs.Search.Budget

/-!
The search one change at a time. A visit is taken apart into the steps that it makes on the state,
and taking them one after the other is the visit. The books agree with what is assigned before
every one of them: a partition is placed only while it is open and the limits allow it, it is taken
back from the host that it was put on, and what is accepted is complete.
-/

namespace Rebalance

namespace SearchProblem

section
variable {α : Type}

inductive Step (α : Type) where
  | count
  /-- Gives up for want of budget. -/
  | halt
  | place (partition host : Nat)
  | unplace (partition host : Nat)
  | accept (incumbent : Assignment × α)
deriving DecidableEq

def apply (problem : SearchProblem α) (state : SearchState α) : Step α → SearchState α
  | .count => counted state
  | .halt => { state with truncated := true }
  | .place partition host => problem.place partition host state
  | .unplace partition host => problem.unplace partition host state
  | .accept incumbent => { state with incumbent := some incumbent }

def replay (problem : SearchProblem α) (state : SearchState α) (steps : List (Step α)) :
    SearchState α := steps.foldl problem.apply state

/-- Places a partition, takes the steps of a visit one level down, and takes the partition back. -/
def trial (problem : SearchProblem α) (partition host : Nat)
    (below : SearchState α → List (Step α)) (state : SearchState α) : List (Step α) :=
  .place partition host :: below (problem.place partition host state) ++ [.unplace partition host]

/-- The steps of trying hosts for a partition, where `below` are those of a visit one level down. -/
def stepsAmong (problem : SearchProblem α) (partition : Nat)
    (below : SearchState α → List (Step α)) : List Nat → SearchState α → List (Step α)
  | [], _ => []
  | host :: hosts, state =>
    if state.truncated then []
    else if problem.allows state partition host then
      let tried := problem.trial partition host below state
      tried ++ problem.stepsAmong partition below hosts (problem.replay state tried)
    else problem.stepsAmong partition below hosts state

variable {problem : SearchProblem α} {remaining rest top : List Nat} {partition host : Nat}
variable {state : SearchState α} {step : Step α} {steps further : List (Step α)}

theorem replay_cons : problem.replay state (step :: steps) =
    problem.replay (problem.apply state step) steps := rfl

theorem replay_append : problem.replay state (steps ++ further) =
    problem.replay (problem.replay state steps) further := List.foldl_append

/-- The first `depth` partitions in branching order are assigned and no others, and the books say
of them how many there are on each host and how many away from home. -/
structure Agrees (problem : SearchProblem α) (depth : Nat) (state : SearchState α) : Prop where
  size : state.assignment.size = problem.model.partitions.length
  assigned : ∀ number < problem.model.partitions.length,
    (state.assignment.hostAt number).isSome = true ↔ number ∈ problem.order.take depth
  hosts : state.load.size = problem.model.hosts.length
  load : ∀ host, state.load.getD host 0 = state.assignment.load host
  moved : state.moved = state.assignment.apart problem.home

theorem Agrees.inRange {depth : Nat} (agrees : Agrees problem depth state) :
    problem.model.InRange state.assignment := by
  intro number host chosen
  have inside : number < state.assignment.size := Assignment.lt_size_of_hostAt chosen
  have loaded : 0 < state.load.getD host 0 := by
    rw [agrees.load]
    exact List.countP_pos_iff.2 ⟨number, List.mem_range.2 inside, beq_iff_eq.2 chosen⟩
  rw [← agrees.hosts]
  refine Nat.lt_of_not_le fun beyond => ?_
  rw [Array.getD_eq_getD_getElem?, Array.getElem?_eq_none beyond] at loaded
  exact Nat.lt_irrefl 0 loaded

theorem IsProper.mem_drop_iff (proper : problem.IsProper) {depth number : Nat}
    (bound : number < problem.model.partitions.length) :
    number ∈ problem.order.drop depth ↔ number ∉ problem.order.take depth := by
  have listed : number ∈ problem.order.take depth ++ problem.order.drop depth := by
    rw [List.take_append_drop, proper.order.mem_iff]
    exact List.mem_range.2 bound
  constructor
  · exact fun later earlier => List.disjoint_take_drop proper.nodup_order le_rfl earlier later
  · exact (List.mem_append.1 listed).resolve_left

theorem Agrees.tracks (proper : problem.IsProper) {depth : Nat}
    (agrees : Agrees problem depth state) :
    Tracks problem (problem.order.drop depth) state where
  size := agrees.size
  distinct := proper.nodup_order.drop
  open_iff number bound := by
    rw [proper.mem_drop_iff bound, ← agrees.assigned number bound, Option.not_isSome_iff_eq_none]
  bounded number listed :=
    List.mem_range.1 (proper.order.mem_iff.1 (List.mem_of_mem_drop listed))
  inRange := agrees.inRange
  hosts := agrees.hosts
  load host _ := agrees.load host
  moved := agrees.moved

theorem Tracks.agrees (proper : problem.IsProper) {depth : Nat}
    (tracks : Tracks problem (problem.order.drop depth) state) : Agrees problem depth state where
  size := tracks.size
  assigned number bound := by
    rw [← Option.ne_none_iff_isSome, Ne, tracks.open_iff number bound, proper.mem_drop_iff bound,
      not_not]
  hosts := tracks.hosts
  load host := by
    by_cases below : host < problem.model.hosts.length
    · exact tracks.load host below
    · have beyond := Nat.le_of_not_lt below
      rw [Model.load_eq_zero_of_inRange tracks.inRange beyond, Array.getD_eq_getD_getElem?,
        Array.getElem?_eq_none (tracks.hosts ▸ beyond), Option.getD_none]
  moved := tracks.moved

/-- A partition that is still open may go to a host, and the limits allow it. -/
structure Fits (problem : SearchProblem α) (now : SearchState α) (partition host : Nat) : Prop where
  bound : partition < now.assignment.size
  fresh : now.assignment.hostAt partition = none
  inside : host < problem.model.hosts.length
  capacity : (problem.place partition host now).assignment.load host ≤ problem.limits.perHost
  budget : (problem.place partition host now).assignment.apart problem.home ≤ problem.limits.moved

theorem fits_of_allows (tracks : Tracks problem (partition :: rest) state)
    (inside : host < problem.model.hosts.length)
    (allowed : problem.allows state partition host = true) :
    Fits problem state partition host := by
  have ⟨bound, fresh⟩ := tracks.head
  have ⟨room, budget⟩ := (allows_iff tracks inside).1 allowed
  refine ⟨bound, fresh, inside, ?_, ?_⟩
  · change Assignment.load (state.assignment.setIfInBounds partition (some host)) host ≤ _
    rw [Assignment.load_set bound fresh, if_pos rfl]
    exact room
  · change Assignment.apart (state.assignment.setIfInBounds partition (some host)) _ ≤ _
    rw [Assignment.apart_set bound fresh]
    exact budget

end

variable {α : Type} [Scalar α]

def steps (problem : SearchProblem α) (remaining : List Nat) (state : SearchState α) :
    List (Step α) :=
  if state.truncated then []
  else if problem.overBudget (state.nodes + 1) then [.count, .halt]
  else
    let bound := problem.model.objective state.assignment
    if isHopeless state.incumbent bound then [.count]
    else
      match remaining with
      | [] => [.count, .accept (state.assignment, bound)]
      | partition :: rest =>
        .count :: problem.stepsAmong partition (problem.steps rest)
          (problem.choices.getD partition []) (counted state)

/-- The steps that a visit makes, beside what it comes to. -/
inductive Conduct (problem : SearchProblem α) :
    List Nat → SearchState α → List (Step α) → SearchState α → Prop where
  | stopped {remaining : List Nat} {state : SearchState α} :
      Conduct problem remaining state [] state
  | exhausted {remaining : List Nat} {state : SearchState α} :
      Conduct problem remaining state [.count, .halt] { counted state with truncated := true }
  | pruned {remaining : List Nat} {state : SearchState α} :
      Conduct problem remaining state [.count] (counted state)
  | leaf {state : SearchState α} :
      Conduct problem [] state
        [.count, .accept (state.assignment, problem.model.objective state.assignment)]
        { counted state with
          incumbent := some (state.assignment, problem.model.objective state.assignment) }
  | inner {partition : Nat} {rest : List Nat} {state : SearchState α} :
      Conduct problem (partition :: rest) state
        (.count :: problem.stepsAmong partition (problem.steps rest)
          (problem.choices.getD partition []) (counted state))
        (problem.explore partition rest (counted state))

theorem conduct_branch (problem : SearchProblem α) (remaining : List Nat)
    (state : SearchState α) :
    Conduct problem remaining state (problem.steps remaining state)
      (problem.branch remaining state) := by
  rw [steps.eq_def]
  cases halted : state.truncated with
  | true =>
    rw [branch_of_truncated halted, if_pos rfl]
    exact .stopped
  | false =>
    rw [if_neg Bool.false_ne_true]
    cases spent : problem.overBudget (state.nodes + 1) with
    | true =>
      rw [branch_of_spent halted spent, if_pos rfl]
      exact .exhausted
    | false =>
      rw [branch_of_unspent halted spent, if_neg Bool.false_ne_true]
      simp only
      split
      · exact .pruned
      · cases remaining with
        | nil => exact .leaf
        | cons partition rest => exact .inner

variable {problem : SearchProblem α} {remaining rest top : List Nat} {partition host : Nat}
variable {state : SearchState α} {step : Step α}

/-- A trial comes to what the attempt does, if that is so one level down. -/
theorem replay_trial
    (deeper : ∀ state, problem.replay state (problem.steps rest state) = problem.branch rest state)
    (running : state.truncated = false) (allowed : problem.allows state partition host = true) :
    problem.replay state (problem.trial partition host (problem.steps rest) state) =
      problem.attempt partition rest state host := by
  rw [trial, List.cons_append, replay_cons, replay_append, attempt, running,
    if_neg Bool.false_ne_true, if_pos allowed, ← deeper]
  rfl

theorem replay_stepsAmong
    (deeper : ∀ state, problem.replay state (problem.steps rest state) = problem.branch rest state)
    (hosts : List Nat) (state : SearchState α) :
    problem.replay state (problem.stepsAmong partition (problem.steps rest) hosts state) =
      hosts.foldl (problem.attempt partition rest) state := by
  induction hosts generalizing state with
  | nil => rfl
  | cons host hosts ih =>
    rw [stepsAmong]
    split
    · next halted => rw [foldl_attempt_of_truncated halted]; rfl
    · next going =>
      have running := Bool.eq_false_iff.2 going
      rw [List.foldl_cons]
      split
      · next allowed =>
        simp only
        rw [replay_append, ih, replay_trial deeper running allowed]
      · next barred => rw [ih, attempt, if_neg going, if_neg barred]

theorem replay_steps (problem : SearchProblem α) (remaining : List Nat) (state : SearchState α) :
    problem.replay state (problem.steps remaining state) = problem.branch remaining state := by
  induction remaining generalizing state with
  | nil =>
    have conduct := problem.conduct_branch [] state
    generalize problem.steps [] state = taken, problem.branch [] state = after at conduct ⊢
    cases conduct <;> rfl
  | cons partition rest ih =>
    have conduct := problem.conduct_branch (partition :: rest) state
    generalize problem.steps (partition :: rest) state = taken,
      problem.branch (partition :: rest) state = after at conduct ⊢
    cases conduct with
    | stopped | exhausted | pruned => rfl
    | inner => exact replay_stepsAmong ih _ (counted state)

/-- What a state has to be like for a step. Whatever is placed fits, what is taken back is there,
and what is accepted is the assignment, each partition on some host, with its objective. -/
def Permits (problem : SearchProblem α) (now : SearchState α) : Step α → Prop
  | .count | .halt => True
  | .place partition host => Fits problem now partition host
  | .unplace partition host => now.assignment.hostAt partition = some host
  | .accept incumbent =>
    incumbent = (now.assignment, problem.model.objective now.assignment) ∧
      ∀ number < problem.model.partitions.length, ∃ host < problem.model.hosts.length,
        now.assignment.hostAt number = some host

theorem permits_unplace {after : SearchState α} (tracks : Tracks problem (partition :: rest) state)
    (same : SameBoard (problem.place partition host state) after) :
    problem.Permits after (.unplace partition host) := by
  change after.assignment.hostAt partition = some host
  rw [same.assignment]
  change Assignment.hostAt (state.assignment.setIfInBounds partition (some host)) partition = _
  rw [Assignment.hostAt_set tracks.head.1, if_pos rfl]

theorem permits_accept (tracks : Tracks problem [] state) :
    problem.Permits state
      (.accept (state.assignment, problem.model.objective state.assignment)) := by
  refine ⟨rfl, fun number bound => ?_⟩
  cases chosen : state.assignment.hostAt number with
  | none => exact absurd ((tracks.open_iff number bound).1 chosen) List.not_mem_nil
  | some host => exact ⟨host, tracks.inRange number host chosen, rfl⟩

/-- A moment of a search in which the books agree with the assignment, with no more than `top`
left open, and the step that is taken then. -/
structure Moment (problem : SearchProblem α) (top : List Nat) (now : SearchState α)
    (step : Step α) : Prop where
  tracks : ∃ remaining, remaining <:+ top ∧ Tracks problem remaining now
  permits : problem.Permits now step

theorem Moment.of_tracks (tracks : Tracks problem top state)
    (permits : problem.Permits state step) : Moment problem top state step :=
  ⟨⟨top, List.suffix_rfl, tracks⟩, permits⟩

/-- Steps each of which is permitted when its turn comes. -/
inductive Orderly (problem : SearchProblem α) (top : List Nat) :
    SearchState α → List (Step α) → Prop where
  | nil {state : SearchState α} : Orderly problem top state []
  | cons {state : SearchState α} {step : Step α} {steps : List (Step α)}
      (moment : Moment problem top state step)
      (later : Orderly problem top (problem.apply state step) steps) :
      Orderly problem top state (step :: steps)

section
variable {steps further before later : List (Step α)}

theorem Orderly.append (orderly : Orderly problem top state steps)
    (afterwards : Orderly problem top (problem.replay state steps) further) :
    Orderly problem top state (steps ++ further) := by
  induction orderly with
  | nil => exact afterwards
  | cons moment _ ih => exact .cons moment (ih afterwards)

theorem Orderly.mono (suffix : rest <:+ top) (orderly : Orderly problem rest state steps) :
    Orderly problem top state steps := by
  induction orderly with
  | nil => exact .nil
  | cons moment _ ih =>
    obtain ⟨⟨remaining, below, tracks⟩, permits⟩ := moment
    exact .cons ⟨⟨remaining, below.trans suffix, tracks⟩, permits⟩ ih

theorem Orderly.moment (orderly : Orderly problem top state (before ++ step :: later)) :
    Moment problem top (problem.replay state before) step := by
  induction before generalizing state with
  | nil =>
    cases orderly with
    | cons moment => exact moment
  | cons earlier before ih =>
    cases orderly with
    | cons _ rest => exact ih rest

end

/-- A trial is orderly, if visits one level down are. -/
theorem orderly_trial (proper : problem.IsProper)
    (tracks : Tracks problem (partition :: rest) state)
    (inside : host < problem.model.hosts.length)
    (allowed : problem.allows state partition host = true)
    (deeper : ∀ state, Tracks problem rest state →
      Orderly problem rest state (problem.steps rest state)) :
    Orderly problem (partition :: rest) state
      (problem.trial partition host (problem.steps rest) state) := by
  have below : rest <:+ partition :: rest := List.suffix_cons partition rest
  have placed := tracks.place inside
  -- the visit one level down leaves the board as it was when the partition was placed
  have same : SameBoard (problem.place partition host state)
      (problem.replay (problem.place partition host state)
        (problem.steps rest (problem.place partition host state))) :=
    replay_steps problem rest _ ▸ sameBoard_branch proper placed
  have first : Moment problem (partition :: rest) state (.place partition host) :=
    .of_tracks tracks (fits_of_allows tracks inside allowed)
  apply Orderly.cons first
  apply ((deeper _ placed).mono below).append
  exact .cons ⟨⟨rest, below, placed.of_sameBoard same⟩, permits_unplace tracks same⟩ .nil

theorem orderly_stepsAmong (proper : problem.IsProper)
    (tracks : Tracks problem (partition :: rest) state) {hosts : List Nat}
    (listed : ∀ host ∈ hosts, host ∈ problem.choices.getD partition [])
    (deeper : ∀ state, Tracks problem rest state →
      Orderly problem rest state (problem.steps rest state)) :
    Orderly problem (partition :: rest) state
      (problem.stepsAmong partition (problem.steps rest) hosts state) := by
  induction hosts generalizing state with
  | nil => exact .nil
  | cons host hosts ih =>
    have bound := tracks.bounded partition List.mem_cons_self
    have inside := proper.lt_of_mem_choices bound (listed host List.mem_cons_self)
    have others : ∀ host ∈ hosts, host ∈ problem.choices.getD partition [] :=
      fun host later => listed host (List.mem_cons_of_mem _ later)
    rw [stepsAmong]
    split
    · exact .nil
    · next going =>
      split
      · next allowed =>
        -- the next host is tried on the board as it was before this one
        refine (orderly_trial proper tracks inside allowed deeper).append (ih ?_ others)
        rw [replay_trial (replay_steps problem rest) (Bool.eq_false_iff.2 going) allowed]
        exact tracks.of_sameBoard (sameBoard_attempt tracks inside fun _ => sameBoard_branch proper)
      · exact ih tracks others

/-- A visit is orderly where the books agree, if those one level down are. -/
theorem orderly_visit (proper : problem.IsProper) (tracks : Tracks problem remaining state)
    (deeper : ∀ partition rest, remaining = partition :: rest → ∀ state,
      Tracks problem rest state → Orderly problem rest state (problem.steps rest state)) :
    Orderly problem remaining state (problem.steps remaining state) := by
  -- counting a node leaves the board alone
  have counts : Tracks problem remaining (counted state) := tracks.of_sameBoard ⟨rfl, rfl, rfl⟩
  have first : Moment problem remaining state .count := .of_tracks tracks trivial
  have conduct := problem.conduct_branch remaining state
  generalize problem.steps remaining state = taken, problem.branch remaining state = after
    at conduct ⊢
  cases conduct with
  | stopped => exact .nil
  | exhausted => exact .cons first (.cons (.of_tracks counts trivial) .nil)
  | pruned => exact .cons first .nil
  | leaf => exact .cons first (.cons (.of_tracks counts (permits_accept counts)) .nil)
  | inner =>
    exact .cons first
      (orderly_stepsAmong proper counts (fun _ listed => listed) (deeper _ _ rfl))

theorem orderly_steps (proper : problem.IsProper) (tracks : Tracks problem remaining state) :
    Orderly problem remaining state (problem.steps remaining state) := by
  induction remaining generalizing state with
  | nil =>
    apply orderly_visit proper tracks
    rintro _ _ ⟨⟩
  | cons partition rest ih =>
    apply orderly_visit proper tracks
    rintro _ _ ⟨⟩
    exact fun _ => ih

theorem Within.apply (within : Within problem state.assignment)
    (permits : problem.Permits state step) :
    Within problem (problem.apply state step).assignment := by
  cases step with
  | count | halt | accept => exact within
  | place partition host =>
    refine ⟨fun other => ?_, permits.budget⟩
    by_cases here : other = host
    · exact here ▸ permits.capacity
    · change Assignment.load (state.assignment.setIfInBounds partition (some host)) other ≤ _
      rw [Assignment.load_set permits.bound permits.fresh, if_neg here]
      exact within.capacity other
  | unplace partition host =>
    have sizes : (state.assignment.setIfInBounds partition none).size = state.assignment.size :=
      Array.size_setIfInBounds
    have agree := state.assignment.extends_set_none partition
    constructor
    · exact fun other => (Assignment.load_mono sizes agree other).trans (within.capacity other)
    · exact (Assignment.apart_mono sizes agree problem.home).trans within.budget

theorem Within.replay {before later : List (Step α)} (within : Within problem state.assignment)
    (orderly : Orderly problem top state (before ++ later)) :
    Within problem (problem.replay state before).assignment := by
  induction before generalizing state with
  | nil => exact within
  | cons step before ih =>
    cases orderly with
    | cons moment orderly => exact ih (within.apply moment.permits) orderly

theorem head?_choices_ofModel (model : Model α) (current : Placement) (limits : SearchLimits)
    {partition home : Nat} (bound : partition < model.partitions.length)
    (lives : (ofModel model current limits).homeOf partition = some home) :
    ((ofModel model current limits).choices.getD partition []).head? = some home := by
  change (model.assignmentOf current).hostAt partition = some home at lives
  rw [choices_ofModel model current limits bound, lives]
  rfl

/-- Whatever the model and the limits are, the search takes the partitions in some order, and for
each of them the hosts in some order with its home in front. From any state whose books agree with
the first partitions in that order, a visit hands back the board as it found it, however it ends. It
is made of steps before each of which the books agree, that do not lead beyond the limits, and that
accept nothing but complete assignments with their own objectives. -/
theorem visit_by_steps (model : Model α) (current : Placement) (limits : SearchLimits) :
    let problem := ofModel model current limits
    problem.order.Perm (List.range model.partitions.length) ∧
      (∀ partition < model.partitions.length,
        (problem.choices.getD partition []).Perm (List.range model.hosts.length) ∧
          ∀ home, problem.homeOf partition = some home →
            (problem.choices.getD partition []).head? = some home) ∧
      ∀ depth state, Agrees problem depth state →
        let remaining := problem.order.drop depth
        SameBoard state (problem.branch remaining state) ∧
          problem.replay state (problem.steps remaining state) = problem.branch remaining state ∧
          ∀ before step later, problem.steps remaining state = before ++ step :: later →
            let now := problem.replay state before
            (∃ reached, depth ≤ reached ∧ Agrees problem reached now) ∧
              problem.Permits now step ∧
              (Within problem state.assignment → Within problem now.assignment) := by
  intro problem
  have proper : problem.IsProper := isProper_ofModel model current limits
  refine ⟨proper.order, fun partition bound => ?_, fun depth state agrees => ?_⟩
  · exact ⟨proper.choices partition bound,
      fun home lives => head?_choices_ofModel model current limits bound lives⟩
  · intro remaining
    have tracks : Tracks problem remaining state := agrees.tracks proper
    refine ⟨sameBoard_branch proper tracks, replay_steps problem remaining state, ?_⟩
    intro before step later split now
    have orderly : Orderly problem remaining state (before ++ step :: later) :=
      split ▸ orderly_steps proper tracks
    obtain ⟨⟨left, suffix, here⟩, permits⟩ := orderly.moment
    refine ⟨?_, permits, fun within => within.replay orderly⟩
    -- what is left open now is what was left on entry without some partitions from its front
    rw [List.suffix_iff_eq_drop.1 suffix, List.drop_drop] at here
    exact ⟨_, Nat.le_add_right depth _, here.agrees proper⟩

/-- The heaviest partition is away from home on entry. The budget runs out between two hosts of the
last partition, with one assignment accepted. -/
theorem visit_by_steps_cutShort :
    let limits : SearchLimits := { perHost := 2, moved := 2, nodes := 3 }
    let key : GroupKey := { procedure := "pay", host := 200, scope := .single 1 }
    let sample := ((Sample.new 8).recordTransaction key 40 .far).2.reconcile
    let current := Placement.ofPairs [(100, 1), (100, 2), (200, 3)]
    let problem : SearchProblem ℚ := ofModel (.build sample current .empty) current limits
    let state : SearchState ℚ :=
      { assignment := #[some 1, none, none], load := #[0, 1], moved := 1 }
    let remaining := problem.order.drop 1
    Agrees problem 1 state ∧
      problem.steps remaining state =
        [.count, .place 1 0, .count, .place 2 1, .count, .accept (#[some 1, some 0, some 1], 20),
          .unplace 2 1, .place 2 0, .count, .halt, .unplace 2 0, .unplace 1 0] ∧
      SameBoard state (problem.branch remaining state) ∧
      ∀ before step later, problem.steps remaining state = before ++ step :: later →
        problem.Permits (problem.replay state before) step := by
  intro limits key sample current problem state remaining
  have order : problem.order = [0, 1, 2] := by
    refine List.mergeSort_of_pairwise (l := List.range 3) ?_
    decide +kernel
  have taken : problem.steps [1, 2] state =
      [.count, .place 1 0, .count, .place 2 1, .count, .accept (#[some 1, some 0, some 1], 20),
        .unplace 2 1, .place 2 0, .count, .halt, .unplace 2 0, .unplace 1 0] := by
    decide +kernel
  have agrees : Agrees problem 1 state :=
    { size := by decide +kernel
      assigned := by
        rw [order]
        decide +kernel
      hosts := by decide +kernel
      load := by
        intro host
        rw [Assignment.load_eq_count]
        match host with
        | 0 => decide
        | 1 => decide
        | host + 2 => simp [state]
      moved := by decide +kernel }
  obtain ⟨_, _, visits⟩ :=
    visit_by_steps (.build sample current .empty : Model ℚ) current limits
  obtain ⟨same, _, moments⟩ := visits 1 state agrees
  have left : remaining = [1, 2] := congrArg (List.drop 1) order
  refine ⟨agrees, left ▸ taken, same, fun before step later split => ?_⟩
  exact (moments before step later split).2.1

end SearchProblem

end Rebalance
