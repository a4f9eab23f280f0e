import Rebalance.Placement.Search
import Rebalance.Proofs.Placement.Encoding

/-!
The books of the search. Loads and moves follow the assignment through every node, a visit
hands back the board it was given, and the incumbent changes only at complete assignments
within the limits. Nothing here depends on the arithmetic.
-/

namespace Rebalance.SearchProblem

section
variable {α : Type}

/-- Two states with the same choices made and the same books. -/
structure SameBoard (before after : SearchState α) : Prop where
  assignment : after.assignment = before.assignment
  load : after.load = before.load
  moved : after.moved = before.moved

theorem SameBoard.trans {first second third : SearchState α} (here : SameBoard first second)
    (there : SameBoard second third) : SameBoard first third :=
  ⟨there.assignment.trans here.assignment, there.load.trans here.load,
    there.moved.trans here.moved⟩

/-- The branching order lists every partition number and each list of choices every host
number, both once, and partitions are at home on hosts of the model. -/
structure IsProper (problem : SearchProblem α) : Prop where
  order : problem.order.Perm (List.range problem.model.partitions.length)
  choices : ∀ partition < problem.model.partitions.length,
    (problem.choices.getD partition []).Perm (List.range problem.model.hosts.length)
  size : problem.home.size = problem.model.partitions.length
  inRange : problem.model.InRange problem.home

/-- The books agree with the assignment, which leaves exactly `remaining` open. -/
structure Tracks (problem : SearchProblem α) (remaining : List Nat) (state : SearchState α) :
    Prop where
  size : state.assignment.size = problem.model.partitions.length
  distinct : remaining.Nodup
  open_iff : ∀ number < problem.model.partitions.length,
    state.assignment.hostAt number = none ↔ number ∈ remaining
  bounded : ∀ number ∈ remaining, number < problem.model.partitions.length
  inRange : problem.model.InRange state.assignment
  hosts : state.load.size = problem.model.hosts.length
  load : ∀ host < problem.model.hosts.length,
    state.load.getD host 0 = state.assignment.load host
  moved : state.moved = state.assignment.apart problem.home

/-- No host is over capacity and no more partitions are away from home than may be. -/
structure Within (problem : SearchProblem α) (assignment : Assignment) : Prop where
  capacity : ∀ host, assignment.load host ≤ problem.limits.perHost
  budget : assignment.apart problem.home ≤ problem.limits.moved

/-- A complete assignment within the limits. -/
structure Admits (problem : SearchProblem α) (assignment : Assignment) : Prop
    extends Within problem assignment where
  size : assignment.size = problem.model.partitions.length
  assigned : ∀ number < problem.model.partitions.length, ∃ host, assignment.hostAt number = some host
  inRange : problem.model.InRange assignment

variable {problem : SearchProblem α} {remaining rest : List Nat} {partition host : Nat}
variable {state after : SearchState α} {target : Assignment}

theorem IsProper.nodup_order (proper : problem.IsProper) : problem.order.Nodup :=
  proper.order.nodup_iff.2 List.nodup_range

theorem Tracks.of_sameBoard (tracks : Tracks problem remaining state)
    (same : SameBoard state after) : Tracks problem remaining after where
  size := same.assignment ▸ tracks.size
  distinct := tracks.distinct
  open_iff := same.assignment ▸ tracks.open_iff
  bounded := tracks.bounded
  inRange := same.assignment ▸ tracks.inRange
  hosts := same.load ▸ tracks.hosts
  load := same.assignment ▸ same.load ▸ tracks.load
  moved := same.assignment ▸ same.moved ▸ tracks.moved

theorem Tracks.head (tracks : Tracks problem (partition :: rest) state) :
    partition < state.assignment.size ∧ state.assignment.hostAt partition = none := by
  have bound := tracks.bounded partition List.mem_cons_self
  exact ⟨tracks.size ▸ bound, (tracks.open_iff partition bound).2 List.mem_cons_self⟩

theorem Tracks.place (tracks : Tracks problem (partition :: rest) state)
    (inside : host < problem.model.hosts.length) :
    Tracks problem rest (problem.place partition host state) := by
  have ⟨bound, fresh⟩ := tracks.head
  have distinct := List.nodup_cons.1 tracks.distinct
  constructor
  · show (state.assignment.setIfInBounds partition (some host)).size = _
    rw [Array.size_setIfInBounds, tracks.size]
  · exact distinct.2
  · intro number below
    show Assignment.hostAt (state.assignment.setIfInBounds partition (some host)) number = none ↔ _
    rw [Assignment.hostAt_set bound]
    by_cases here : number = partition
    · subst here
      rw [if_pos rfl]
      exact iff_of_false (Option.some_ne_none host) distinct.1
    · rw [if_neg here, tracks.open_iff number below, List.mem_cons, or_iff_right here]
  · exact fun number member => tracks.bounded number (List.mem_cons_of_mem _ member)
  · intro number other found
    change Assignment.hostAt (state.assignment.setIfInBounds partition (some host)) number = _
      at found
    rw [Assignment.hostAt_set bound] at found
    by_cases here : number = partition
    · rw [if_pos here, Option.some.injEq] at found
      exact found ▸ inside
    · rw [if_neg here] at found
      exact tracks.inRange number other found
  · show (state.load.modify host (· + 1)).size = _
    rw [Array.size_modify, tracks.hosts]
  · intro other below
    show (state.load.modify host (· + 1)).getD other 0 =
      Assignment.load (state.assignment.setIfInBounds partition (some host)) other
    have known := tracks.load other below
    rw [Assignment.load_set bound fresh, ← known, Array.getD_eq_getD_getElem?,
      Array.getElem?_modify, Array.getD_eq_getD_getElem?]
    have present : other < state.load.size := tracks.hosts ▸ below
    rw [Array.getElem?_eq_getElem present]
    by_cases here : host = other
    · simp [here]
    · simp [here, Ne.symm here]
  · show state.moved + problem.moveCost partition host =
      Assignment.apart (state.assignment.setIfInBounds partition (some host)) problem.home
    rw [Assignment.apart_set bound fresh, tracks.moved]
    rfl

theorem allows_iff (tracks : Tracks problem remaining state)
    (inside : host < problem.model.hosts.length) :
    problem.allows state partition host = true ↔
      state.assignment.load host < problem.limits.perHost ∧
        state.assignment.apart problem.home + problem.moveCost partition host ≤
          problem.limits.moved := by
  unfold allows
  rw [Bool.and_eq_true, decide_eq_true_eq, decide_eq_true_eq, tracks.load host inside,
    tracks.moved]

theorem Within.place (within : Within problem state.assignment)
    (tracks : Tracks problem (partition :: rest) state)
    (inside : host < problem.model.hosts.length)
    (allowed : problem.allows state partition host = true) :
    Within problem (problem.place partition host state).assignment := by
  have ⟨bound, fresh⟩ := tracks.head
  have ⟨room, budget⟩ := (allows_iff tracks inside).1 allowed
  constructor
  · intro other
    show Assignment.load (state.assignment.setIfInBounds partition (some host)) other ≤ _
    have before := within.capacity other
    rw [Assignment.load_set bound fresh]
    by_cases here : other = host
    · subst here
      rw [if_pos rfl]
      omega
    · rw [if_neg here]
      exact before
  · show Assignment.apart (state.assignment.setIfInBounds partition (some host)) problem.home ≤ _
    rw [Assignment.apart_set bound fresh]
    exact budget

theorem SameBoard.unplace (tracks : Tracks problem (partition :: rest) state)
    (same : SameBoard (problem.place partition host state) after) :
    SameBoard state (problem.unplace partition host after) := by
  have ⟨bound, fresh⟩ := tracks.head
  constructor
  · show after.assignment.setIfInBounds partition none = _
    rw [same.assignment]
    exact Assignment.set_none_set bound fresh (some host)
  · show after.load.modify host (· - 1) = _
    rw [same.load]
    apply Array.ext_getElem?
    intro other
    show ((state.load.modify host (· + 1)).modify host (· - 1))[other]? = _
    rw [Array.getElem?_modify, Array.getElem?_modify]
    by_cases here : host = other
    · simp [here, Function.comp_def]
    · simp [here]
  · show after.moved - problem.moveCost partition host = _
    rw [same.moved]
    exact Nat.add_sub_cancel ..

theorem IsProper.lt_of_mem_choices (proper : problem.IsProper)
    (bound : partition < problem.model.partitions.length)
    (member : host ∈ problem.choices.getD partition []) : host < problem.model.hosts.length :=
  List.mem_range.1 ((proper.choices partition bound).mem_iff.1 member)

/-- What the target allows as a whole is allowed at every step towards it. -/
theorem allows_of_extends (tracks : Tracks problem (partition :: rest) state)
    (admits : Admits problem target) (agree : target.Extends state.assignment) {host : Nat}
    (chosen : target.hostAt partition = some host) :
    problem.allows state partition host = true ∧
      target.Extends (problem.place partition host state).assignment := by
  have ⟨bound, fresh⟩ := tracks.head
  have inside := admits.inRange partition host chosen
  have further : target.Extends (state.assignment.setIfInBounds partition (some host)) := by
    intro number other found
    rw [Assignment.hostAt_set bound] at found
    split at found
    · next here =>
      rw [here, chosen]
      exact found
    · exact agree number other found
  have sizes : (state.assignment.setIfInBounds partition (some host)).size = target.size := by
    rw [Array.size_setIfInBounds, tracks.size, admits.size]
  refine ⟨(allows_iff tracks inside).2 ⟨?_, ?_⟩, further⟩
  · have loads := Assignment.load_mono sizes further host
    rw [Assignment.load_set bound fresh, if_pos rfl] at loads
    have capacity := admits.capacity host
    omega
  · have moves := Assignment.apart_mono sizes further problem.home
    rw [Assignment.apart_set bound fresh] at moves
    have budget := admits.budget
    exact Nat.le_trans moves budget

theorem Tracks.admits (tracks : Tracks problem [] state)
    (within : Within problem state.assignment) : Admits problem state.assignment where
  toWithin := within
  size := tracks.size
  assigned number bound := by
    cases chosen : state.assignment.hostAt number with
    | none => exact absurd ((tracks.open_iff number bound).1 chosen) List.not_mem_nil
    | some host => exact ⟨host, rfl⟩
  inRange := tracks.inRange

end

variable {α : Type} [Scalar α]

def attempt (problem : SearchProblem α) (partition : Nat) (rest : List Nat)
    (state : SearchState α) (host : Nat) : SearchState α :=
  if state.truncated then state
  else if problem.allows state partition host then
    problem.unplace partition host (problem.branch rest (problem.place partition host state))
  else state

def explore (problem : SearchProblem α) (partition : Nat) (rest : List Nat)
    (state : SearchState α) : SearchState α :=
  (problem.choices.getD partition []).foldl (problem.attempt partition rest) state

def counted (state : SearchState α) : SearchState α := { state with nodes := state.nodes + 1 }

inductive Visit (problem : SearchProblem α) :
    List Nat → SearchState α → SearchState α → Prop where
  | stopped {remaining : List Nat} {state : SearchState α} (halted : state.truncated = true) :
      Visit problem remaining state state
  | exhausted {remaining : List Nat} {state : SearchState α} (running : state.truncated = false)
      (spent : problem.overBudget (state.nodes + 1) = true) :
      Visit problem remaining state { counted state with truncated := true }
  | pruned {remaining : List Nat} {state : SearchState α} (running : state.truncated = false)
      (hopeless : isHopeless state.incumbent (problem.model.objective state.assignment) = true) :
      Visit problem remaining state (counted state)
  | leaf {state : SearchState α} (running : state.truncated = false)
      (hopeful : isHopeless state.incumbent (problem.model.objective state.assignment) = false) :
      Visit problem [] state
        { counted state with
          incumbent := some (state.assignment, problem.model.objective state.assignment) }
  | inner {partition : Nat} {rest : List Nat} {state : SearchState α}
      (running : state.truncated = false)
      (hopeful : isHopeless state.incumbent (problem.model.objective state.assignment) = false) :
      Visit problem (partition :: rest) state (problem.explore partition rest (counted state))

theorem visit_branch (problem : SearchProblem α) (remaining : List Nat)
    (state : SearchState α) : Visit problem remaining state (problem.branch remaining state) := by
  rw [branch.eq_def]
  by_cases halted : state.truncated = true
  · rw [if_pos halted]
    exact .stopped halted
  · have running : state.truncated = false := Bool.eq_false_iff.2 halted
    rw [if_neg halted]
    by_cases spent : problem.overBudget (state.nodes + 1) = true
    · simp only [spent, if_true]
      exact .exhausted running spent
    · simp only [spent]
      by_cases hopeless :
          isHopeless state.incumbent (problem.model.objective state.assignment) = true
      · simp only [hopeless, if_true]
        exact .pruned running hopeless
      · have hopeful := Bool.eq_false_iff.2 hopeless
        simp only [hopeful, Bool.false_eq_true, if_false]
        cases remaining with
        | nil => exact .leaf running hopeful
        | cons partition rest => exact .inner running hopeful

variable {problem : SearchProblem α} {remaining rest : List Nat} {partition host : Nat}
variable {state after : SearchState α}

/-- Where every visit one level down leaves the board as it was, so does an attempt. -/
theorem sameBoard_attempt (tracks : Tracks problem (partition :: rest) state)
    (inside : host < problem.model.hosts.length)
    (deeper : ∀ state, Tracks problem rest state → SameBoard state (problem.branch rest state)) :
    SameBoard state (problem.attempt partition rest state host) := by
  unfold attempt
  split
  · exact ⟨rfl, rfl, rfl⟩
  · split
    · exact (deeper _ (tracks.place inside)).unplace tracks
    · exact ⟨rfl, rfl, rfl⟩

theorem sameBoard_foldl_attempt (proper : problem.IsProper)
    (tracks : Tracks problem (partition :: rest) state) {hosts : List Nat}
    (listed : ∀ host ∈ hosts, host ∈ problem.choices.getD partition [])
    (deeper : ∀ state, Tracks problem rest state → SameBoard state (problem.branch rest state)) :
    SameBoard state (hosts.foldl (problem.attempt partition rest) state) := by
  have bound := tracks.bounded partition List.mem_cons_self
  apply List.foldlRecOn hosts _ ⟨rfl, rfl, rfl⟩
  intro between same host member
  exact same.trans (sameBoard_attempt (tracks.of_sameBoard same)
    (proper.lt_of_mem_choices bound (listed host member)) deeper)

/-- A visit leaves assignment, loads and moves as it found them, however it ends. -/
theorem sameBoard_branch (proper : problem.IsProper) (tracks : Tracks problem remaining state) :
    SameBoard state (problem.branch remaining state) := by
  induction remaining generalizing state with
  | nil =>
    have visit := problem.visit_branch [] state
    generalize problem.branch [] state = after at visit ⊢
    cases visit <;> exact ⟨rfl, rfl, rfl⟩
  | cons partition rest ih =>
    have visit := problem.visit_branch (partition :: rest) state
    generalize problem.branch (partition :: rest) state = after at visit ⊢
    cases visit with
    | stopped | exhausted | pruned => exact ⟨rfl, rfl, rfl⟩
    | inner =>
      have start : SameBoard state (counted state) := ⟨rfl, rfl, rfl⟩
      exact start.trans (sameBoard_foldl_attempt proper (tracks.of_sameBoard start)
        (fun _ member => member) fun _ => ih)

/-- What every visit one level down keeps of the incumbent, trying hosts keeps. -/
theorem incumbent_foldl_attempt (proper : problem.IsProper)
    (holds : Option (Assignment × α) → Prop) (tracks : Tracks problem (partition :: rest) state)
    (within : Within problem state.assignment) {hosts : List Nat}
    (listed : ∀ host ∈ hosts, host ∈ problem.choices.getD partition [])
    (deeper : ∀ state, Tracks problem rest state → Within problem state.assignment →
      holds state.incumbent → holds (problem.branch rest state).incumbent)
    (start : holds state.incumbent) :
    holds (hosts.foldl (problem.attempt partition rest) state).incumbent := by
  have bound := tracks.bounded partition List.mem_cons_self
  have kept : ∀ after, SameBoard state after ∧ holds after.incumbent → ∀ host ∈ hosts,
      SameBoard state (problem.attempt partition rest after host) ∧
        holds (problem.attempt partition rest after host).incumbent := by
    intro after known host member
    have inside := proper.lt_of_mem_choices bound (listed host member)
    have tracksHere := tracks.of_sameBoard known.1
    have withinHere : Within problem after.assignment := known.1.assignment ▸ within
    constructor
    · apply known.1.trans
      exact sameBoard_attempt tracksHere inside fun _ => sameBoard_branch proper
    · unfold attempt
      split
      · exact known.2
      · split
        · next allowed =>
          exact deeper _ (tracksHere.place inside) (withinHere.place tracksHere inside allowed)
            known.2
        · exact known.2
  exact (List.foldlRecOn hosts _ ⟨⟨rfl, rfl, rfl⟩, start⟩ kept).2

/-- What holds of the incumbent before a visit and survives every improvement by a complete
assignment within the limits holds of it afterwards. -/
theorem incumbent_branch (proper : problem.IsProper) (holds : Option (Assignment × α) → Prop)
    (improve : ∀ incumbent assignment, holds incumbent → Admits problem assignment →
      isHopeless incumbent (problem.model.objective assignment) = false →
        holds (some (assignment, problem.model.objective assignment)))
    (tracks : Tracks problem remaining state) (within : Within problem state.assignment)
    (start : holds state.incumbent) : holds (problem.branch remaining state).incumbent := by
  induction remaining generalizing state with
  | nil =>
    have visit := problem.visit_branch [] state
    generalize problem.branch [] state = after at visit ⊢
    cases visit with
    | stopped | exhausted | pruned => exact start
    | leaf running hopeful => exact improve _ _ start (tracks.admits within) hopeful
  | cons partition rest ih =>
    have visit := problem.visit_branch (partition :: rest) state
    generalize problem.branch (partition :: rest) state = after at visit ⊢
    cases visit with
    | stopped | exhausted | pruned => exact start
    | inner =>
      have tracksHere : Tracks problem (partition :: rest) (counted state) :=
        tracks.of_sameBoard ⟨rfl, rfl, rfl⟩
      exact incumbent_foldl_attempt proper holds tracksHere within (fun _ member => member)
        (fun _ => ih) start

theorem foldl_attempt_of_truncated (halted : state.truncated = true) (hosts : List Nat) :
    hosts.foldl (problem.attempt partition rest) state = state := by
  induction hosts with
  | nil => rfl
  | cons host hosts ih =>
    rw [List.foldl_cons, attempt, if_pos halted]
    exact ih

end Rebalance.SearchProblem
