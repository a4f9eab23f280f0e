import Mathlib.Algebra.BigOperators.Group.List.Basic
import Mathlib.Order.Interval.Set.Nat
import Rebalance.Proofs.Workload.Stream

/-!
Which tickets pick which procedure. A ticket passes over one procedure after the other and loses
the weight of each, until what is left of it is below the weight of the next. What is left and what
was lost add up to the ticket in every round, so that the tickets of a procedure are as many as its
weight, next to each other, from the sum of the weights before it on.
-/

namespace Rebalance.Profile

def shareStart (procedures : List Procedure) (index : Nat) : Nat :=
  ((procedures.take index).map (·.weight)).sum

/-- The rounds of a pick: what is left of the ticket, beside the procedure whose weight it is held
against. -/
def rounds : List Procedure → Nat → List (Nat × Procedure)
  | [], _ => []
  | procedure :: rest, ticket =>
    (ticket, procedure) ::
      if ticket < procedure.weight then [] else rounds rest (ticket - procedure.weight)

variable {procedures rest : List Procedure} {procedure passed : Procedure}
variable {ticket round index left : Nat}

theorem shareStart_cons_succ : shareStart (procedure :: rest) (index + 1) =
    procedure.weight + shareStart rest index := by
  rw [shareStart, List.take_succ_cons, List.map_cons, List.sum_cons, shareStart]

theorem shareStart_succ (here : procedures[index]? = some procedure) :
    shareStart procedures (index + 1) = shareStart procedures index + procedure.weight := by
  rw [shareStart, List.take_add_one, here, List.map_append, List.sum_append, shareStart]
  simp

theorem shareStart_le (procedures : List Procedure) (index : Nat) :
    shareStart procedures index ≤ (procedures.map (·.weight)).sum := by
  rw [shareStart, List.map_take, ← List.sum_take_add_sum_drop (procedures.map (·.weight)) index]
  exact Nat.le_add_right _ _

theorem rounds_of_lt (below : ticket < procedure.weight) :
    rounds (procedure :: rest) ticket = [(ticket, procedure)] := by
  rw [rounds, if_pos below]

theorem rounds_of_le (above : procedure.weight ≤ ticket) :
    rounds (procedure :: rest) ticket =
      (ticket, procedure) :: rounds rest (ticket - procedure.weight) := by
  rw [rounds, if_neg (Nat.not_lt.2 above)]

/-- What is left of a ticket and the weights passed over add up to the ticket. -/
theorem left_add_shareStart
    (reached : (rounds procedures ticket)[round]? = some (left, passed)) :
    procedures[round]? = some passed ∧ left + shareStart procedures round = ticket := by
  induction procedures generalizing ticket round with
  | nil => cases reached
  | cons procedure rest ih =>
    cases round with
    | zero =>
      rw [rounds, List.getElem?_cons_zero, Option.some.injEq, Prod.mk.injEq] at reached
      exact ⟨congrArg some reached.2, reached.1.symm⟩
    | succ round =>
      rcases Nat.lt_or_ge ticket procedure.weight with below | above
      · rw [rounds_of_lt below] at reached
        cases reached
      · -- a further round takes the weight off a ticket that is no smaller
        rw [rounds_of_le above, List.getElem?_cons_succ] at reached
        obtain ⟨here, sum⟩ := ih reached
        rw [List.getElem?_cons_succ, shareStart_cons_succ]
        exact ⟨here, by omega⟩

/-- No round but the last takes more off the ticket than is left of it. -/
theorem weight_le_left (reached : (rounds procedures ticket)[round]? = some (left, passed))
    (further : round + 1 < (rounds procedures ticket).length) : passed.weight ≤ left := by
  obtain ⟨here, sum⟩ := left_add_shareStart reached
  obtain ⟨_, next⟩ := left_add_shareStart (List.getElem?_eq_getElem further)
  rw [shareStart_succ here] at next
  omega

/-- In the last round the ticket is used up, if it was below the sum of the weights. -/
theorem getLast?_rounds (below : ticket < (procedures.map (·.weight)).sum) :
    ∃ left procedure, (rounds procedures ticket).getLast? = some (left, procedure) ∧
      left < procedure.weight := by
  induction procedures generalizing ticket with
  | nil => exact absurd below (Nat.not_lt_zero ticket)
  | cons procedure rest ih =>
    rw [List.map_cons, List.sum_cons] at below
    rcases Nat.lt_or_ge ticket procedure.weight with within | above
    · rw [rounds_of_lt within]
      exact ⟨ticket, procedure, rfl, within⟩
    · have further : ticket - procedure.weight < (rest.map (·.weight)).sum := by omega
      obtain ⟨left, last, final, within⟩ := ih further
      rw [rounds_of_le above, List.getLast?_cons, final]
      exact ⟨left, last, rfl, within⟩

/-- Every ticket in the share of a procedure picks it, in the round of its place in the list. -/
theorem pick_of_share (here : procedures[index]? = some procedure)
    (starts : shareStart procedures index ≤ ticket)
    (ends : ticket < shareStart procedures index + procedure.weight) :
    pick procedures ticket = some procedure ∧
      (rounds procedures ticket).length = index + 1 := by
  induction procedures generalizing ticket index with
  | nil => cases here
  | cons first rest ih =>
    cases index with
    | zero =>
      rw [List.getElem?_cons_zero, Option.some.injEq] at here
      subst here
      have below : ticket < first.weight := by
        rw [shareStart, List.take_zero, List.map_nil, List.sum_nil] at ends
        omega
      rw [pick, if_pos below, rounds_of_lt below]
      exact ⟨rfl, rfl⟩
    | succ index =>
      rw [List.getElem?_cons_succ] at here
      rw [shareStart_cons_succ] at starts ends
      have above : first.weight ≤ ticket := by omega
      have after : shareStart rest index ≤ ticket - first.weight := by omega
      have before : ticket - first.weight < shareStart rest index + procedure.weight := by omega
      obtain ⟨picked, length⟩ := ih here after before
      rw [pick, if_neg (Nat.not_lt.2 above), rounds_of_le above, List.length_cons, length]
      exact ⟨picked, rfl⟩

/-- A pick that ends with the procedure at a place in the list, in whose share the ticket falls. No
round before takes more off the ticket than is left of it. -/
structure EndsAt (procedures : List Procedure) (ticket index : Nat) (procedure : Procedure) :
    Prop where
  here : procedures[index]? = some procedure
  picked : pick procedures ticket = some procedure
  starts : shareStart procedures index ≤ ticket
  ends : ticket < shareStart procedures index + procedure.weight
  length : (rounds procedures ticket).length = index + 1
  passed : ∀ round left passed, (rounds procedures ticket)[round]? = some (left, passed) →
    procedures[round]? = some passed ∧ left + shareStart procedures round = ticket ∧
      (round < index → passed.weight ≤ left)

theorem endsAt_of_share (here : procedures[index]? = some procedure)
    (starts : shareStart procedures index ≤ ticket)
    (ends : ticket < shareStart procedures index + procedure.weight) :
    EndsAt procedures ticket index procedure := by
  obtain ⟨picked, length⟩ := pick_of_share here starts ends
  refine ⟨here, picked, starts, ends, length, fun round left passed reached => ?_⟩
  obtain ⟨there, sum⟩ := left_add_shareStart reached
  refine ⟨there, sum, fun earlier => weight_le_left reached ?_⟩
  rw [length]
  exact Nat.succ_lt_succ earlier

theorem endsAt_iff (here : procedures[index]? = some procedure) :
    EndsAt procedures ticket index procedure ↔ shareStart procedures index ≤ ticket ∧
      ticket < shareStart procedures index + procedure.weight := by
  constructor
  · exact fun endsAt => ⟨endsAt.starts, endsAt.ends⟩
  · exact fun within => endsAt_of_share here within.1 within.2

theorem exists_endsAt (below : ticket < (procedures.map (·.weight)).sum) :
    ∃ index procedure, EndsAt procedures ticket index procedure := by
  obtain ⟨left, procedure, final, within⟩ := getLast?_rounds below
  rw [List.getLast?_eq_getElem?] at final
  obtain ⟨here, sum⟩ := left_add_shareStart final
  exact ⟨_, procedure, endsAt_of_share here (by omega) (by omega)⟩

theorem ncard_endsAt (here : procedures[index]? = some procedure) :
    {ticket | ticket < (procedures.map (·.weight)).sum ∧
      EndsAt procedures ticket index procedure}.ncard = procedure.weight := by
  have bound : shareStart procedures index + procedure.weight ≤ (procedures.map (·.weight)).sum :=
    shareStart_succ here ▸ shareStart_le procedures (index + 1)
  have share : {ticket | ticket < (procedures.map (·.weight)).sum ∧
      EndsAt procedures ticket index procedure} =
        Set.Ico (shareStart procedures index) (shareStart procedures index + procedure.weight) := by
    ext ticket
    rw [Set.mem_ofPred_eq, endsAt_iff here, Set.mem_Ico]
    exact and_iff_right_of_imp fun within => within.2.trans_le bound
  rw [share, Set.ncard_Ico_nat, Nat.add_sub_cancel_left]

/-- Weights that add up within 32 bits leave as many tickets as they add up to. A ticket below the
sum of the weights picks the procedure in whose share it falls, which weighs something. Each
procedure in the list has a share of as many tickets as it weighs, and is picked for these and no
others. -/
theorem pick_in_share (profile : Profile) :
    (profile.weightSum < Nat.pow 2 32 → profile.totalWeight = profile.weightSum) ∧
      (∀ ticket < profile.weightSum, ∃ index procedure,
        0 < procedure.weight ∧ EndsAt profile.procedures ticket index procedure) ∧
      ∀ index procedure, profile.procedures[index]? = some procedure →
        (∀ ticket, EndsAt profile.procedures ticket index procedure ↔
          shareStart profile.procedures index ≤ ticket ∧
            ticket < shareStart profile.procedures index + procedure.weight) ∧
          {ticket | ticket < profile.weightSum ∧
            EndsAt profile.procedures ticket index procedure}.ncard = procedure.weight := by
  refine ⟨totalWeight_of_fits, ?_, ?_⟩
  · intro ticket below
    obtain ⟨index, procedure, endsAt⟩ := exists_endsAt below
    have starts := endsAt.starts
    have ends := endsAt.ends
    exact ⟨index, procedure, by omega, endsAt⟩
  · intro index procedure here
    exact ⟨fun ticket => endsAt_iff here, ncard_endsAt here⟩

/-- The second and the last procedure share the tickets. The others weigh nothing. -/
theorem pick_in_share_weightless :
    let weighing (name : String) (weight : Nat) : Procedure :=
      { name, weight, partitions := [101], isSingle := true, initiator := .follow
        baseLatency := 500 }
    let procedures := [weighing "none" 0, weighing "look" 2, weighing "idle" 0, weighing "pay" 3]
    let profile : Profile := { procedures, networkLatency := 10, jitter := 0 }
    profile.totalWeight = profile.weightSum ∧ 4 < profile.totalWeight ∧
      (∃ index procedure, 0 < procedure.weight ∧ EndsAt profile.procedures 4 index procedure) ∧
      shareStart profile.procedures 3 = 2 ∧
      EndsAt profile.procedures 2 3 (weighing "pay" 3) ∧
      {ticket | ticket < profile.totalWeight ∧
        EndsAt profile.procedures ticket 2 (weighing "idle" 0)}.ncard = 0 := by
  intro weighing procedures profile
  have fits : profile.weightSum < Nat.pow 2 32 := by decide
  have below : 4 < profile.weightSum := by decide
  obtain ⟨tickets, shares, places⟩ := pick_in_share profile
  obtain ⟨pays, _⟩ := places 3 (weighing "pay" 3) rfl
  obtain ⟨_, idles⟩ := places 2 (weighing "idle" 0) rfl
  rw [tickets fits]
  exact ⟨rfl, below, shares 4 below, rfl, (pays 2).2 (by decide), idles⟩

end Rebalance.Profile
