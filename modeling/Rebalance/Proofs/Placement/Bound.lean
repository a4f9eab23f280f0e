import Rebalance.Proofs.Exact
import Rebalance.Proofs.Placement.Cost

/-!
In exact arithmetic the objective of a partial assignment is a lower bound for every
assignment that extends it, and no estimate is negative.
-/

namespace Rebalance

variable {K : Type} [ExactField K]

theorem Schedule.time_le_time {schedule : Schedule} {cost other : GroupId → K}
    (below : ∀ group, cost group ≤ other group) : schedule.time cost ≤ schedule.time other := by
  apply Scalar.sum_map_le_sum_map
  intro block _
  cases block with
  | serial group => exact below group
  | concurrent chains =>
    apply Scalar.largest_le_largest
    intro total member
    obtain ⟨chain, inside, rfl⟩ := List.mem_map.1 member
    exact ⟨_, List.mem_map_of_mem inside, Scalar.sum_map_le_sum_map fun group _ => below group⟩

theorem Schedule.time_nonneg {schedule : Schedule} {cost : GroupId → K}
    (above : ∀ group, 0 ≤ cost group) : 0 ≤ schedule.time cost := by
  apply Scalar.sum_map_nonneg
  intro block _
  cases block with
  | serial group => exact above group
  | concurrent chains => exact Scalar.largest_nonneg _

namespace CostTerm

def IsCharge (term : CostTerm K) : Prop :=
  0 ≤ term.base ∧ ∀ partition cost, term.penalty = .single partition cost → 0 ≤ cost

theorem cost_le_cost {term : CostTerm K} (charge : term.IsCharge) {assignment target : Assignment}
    (agree : target.Extends assignment) : term.cost assignment ≤ term.cost target := by
  unfold cost
  cases touched : term.penalty with
  | single partition cost =>
    have added : term.base ≤ term.base + cost :=
      le_add_of_nonneg_right (charge.2 partition cost touched)
    simp only
    by_cases away : isAway term.initiator assignment partition = true
    · rw [if_pos away, if_pos (isAway_mono agree away)]
    · rw [if_neg away]
      split
      · exact added
      · exact le_rfl
  | every costs =>
    exact add_le_add_right (Scalar.largest_le_largest fun cost member =>
      ⟨cost, (awayCosts_sublist agree 0 costs).subset member, le_rfl⟩) term.base

theorem cost_nonneg {term : CostTerm K} (charge : term.IsCharge) (assignment : Assignment) :
    0 ≤ term.cost assignment := by
  unfold cost
  cases touched : term.penalty with
  | single partition cost =>
    simp only
    split
    · exact add_nonneg charge.1 (charge.2 partition cost touched)
    · exact charge.1
  | every costs => exact add_nonneg charge.1 (Scalar.largest_nonneg _)

theorem isCharge_ofGroup (hosts : List HostId) (partitions : List PartitionId) (group : Group) :
    (ofGroup hosts partitions group : CostTerm K).IsCharge := by
  have product (m n : Nat) : (0 : K) ≤ Scalar.ofCount m * Scalar.ofCount n :=
    mul_nonneg (Scalar.ofCount_nonneg m) (Scalar.ofCount_nonneg n)
  unfold ofGroup
  cases group.latency with
  | none =>
    refine ⟨Scalar.ofCount_nonneg 0, fun partition cost charged => ?_⟩
    cases charged
  | some latency =>
    refine ⟨product _ _, fun partition cost charged => ?_⟩
    cases touched : group.key.scope with
    | single =>
      simp only [touched, Penalty.single.injEq] at charged
      rw [← charged.2]
      exact product _ _
    | every =>
      simp only [touched] at charged
      cases charged

end CostTerm

theorem Sample.singleShare_nonneg (sample : Sample) : (0 : K) ≤ sample.singleShare := by
  unfold singleShare
  split
  · exact Scalar.ofCount_nonneg 0
  · exact div_nonneg (Scalar.ofCount_nonneg _) (Scalar.ofCount_nonneg _)

theorem Sample.singleShare_le_one (sample : Sample) : (sample.singleShare : K) ≤ 1 := by
  have few : sample.singleIds.length ≤ sample.size := by
    have bound := List.length_filter_le
      (fun id => (sample.groups[id]?).any (·.key.isSingle)) (List.range sample.groups.size)
    rwa [List.length_range, ← idsWhere, ← sample.listed_single] at bound
  unfold singleShare
  split
  · rw [Scalar.zero_eq]
    exact zero_le_one
  · exact div_le_one_of_le₀ (Scalar.ofCount_le_ofCount few) (Scalar.ofCount_nonneg _)

namespace Model

/-- No term is negative, and the two schedules are weighed by shares of one. -/
structure IsEstimate (model : Model K) : Prop where
  terms : ∀ term ∈ model.terms, term.IsCharge
  weight_nonneg : 0 ≤ model.weight
  weight_le_one : model.weight ≤ 1

theorem isEstimate_build (sample : Sample) (current : Placement) (hosts : IdSet) :
    (build sample current hosts : Model K).IsEstimate where
  terms term member := by
    obtain ⟨group, _, rfl⟩ := Array.mem_map.1 member
    exact CostTerm.isCharge_ofGroup _ _ group
  weight_nonneg := sample.singleShare_nonneg
  weight_le_one := sample.singleShare_le_one

/-- The cost of a group by its index; a group without a term costs nothing. -/
def costAt (model : Model K) (assignment : Assignment) (group : GroupId) : K :=
  (model.terms.map (·.cost assignment)).getD group Scalar.zero

theorem costAt_eq (model : Model K) (assignment : Assignment) (group : GroupId) :
    model.costAt assignment group =
      ((model.terms[group]?).map (·.cost assignment)).getD 0 := by
  rw [costAt, Array.getD_eq_getD_getElem?, Array.getElem?_map, Scalar.zero_eq]

theorem objective_eq (model : Model K) (assignment : Assignment) :
    model.objective assignment =
      model.weight * model.best.time (model.costAt assignment) +
        (1 - model.weight) * model.worst.time (model.costAt assignment) := by
  rw [← Scalar.one_eq]
  rfl

theorem costAt_nonneg {model : Model K} (estimate : model.IsEstimate) (assignment : Assignment)
    (group : GroupId) : 0 ≤ model.costAt assignment group := by
  rw [costAt_eq]
  cases found : model.terms[group]? with
  | none => exact le_rfl
  | some term =>
    exact CostTerm.cost_nonneg (estimate.terms term (Array.mem_of_getElem? found)) assignment

theorem costAt_le_costAt {model : Model K} (estimate : model.IsEstimate)
    {assignment target : Assignment} (agree : target.Extends assignment) (group : GroupId) :
    model.costAt assignment group ≤ model.costAt target group := by
  rw [costAt_eq, costAt_eq]
  cases found : model.terms[group]? with
  | none => exact le_rfl
  | some term =>
    exact CostTerm.cost_le_cost (estimate.terms term (Array.mem_of_getElem? found)) agree

/-- A partial assignment bounds its completions from below. -/
theorem objective_le_objective {model : Model K} (estimate : model.IsEstimate)
    {assignment target : Assignment} (agree : target.Extends assignment) :
    model.objective assignment ≤ model.objective target := by
  have dearer := costAt_le_costAt estimate agree
  rw [objective_eq, objective_eq]
  exact add_le_add
    (mul_le_mul_of_nonneg_left (Schedule.time_le_time dearer) estimate.weight_nonneg)
    (mul_le_mul_of_nonneg_left (Schedule.time_le_time dearer)
      (sub_nonneg.2 estimate.weight_le_one))

theorem objective_nonneg {model : Model K} (estimate : model.IsEstimate)
    (assignment : Assignment) : 0 ≤ model.objective assignment := by
  have charged := costAt_nonneg estimate assignment
  rw [objective_eq]
  exact add_nonneg (mul_nonneg estimate.weight_nonneg (Schedule.time_nonneg charged))
    (mul_nonneg (sub_nonneg.2 estimate.weight_le_one) (Schedule.time_nonneg charged))

end Model

theorem estimatedTime_nonneg (sample : Sample) (placement : Placement) :
    (0 : K) ≤ estimatedTime sample placement :=
  Model.objective_nonneg (Model.isEstimate_build sample placement placement.hostIds) _

/-- The objective is an admissible bound: no assignment that makes the same choices, and perhaps
more, has a smaller one, and no placement that goes on from them has a lower estimate. -/
theorem objective_admissible (sample : Sample) (current : Placement) (hosts : IdSet)
    (assignment : Assignment) :
    let model : Model K := Model.build sample current hosts
    (∀ target : Assignment, target.Extends assignment →
      model.objective assignment ≤ model.objective target) ∧
    (∀ placement : Placement, placement.partitions = current.partitions →
      (∀ entry ∈ placement.pairs, entry.1 ∈ hosts.union current.hostIds) →
        (model.assignmentOf placement).Extends assignment →
          model.objective assignment ≤ estimatedTime sample placement) := by
  intro model
  have estimate : model.IsEstimate := Model.isEstimate_build sample current hosts
  refine ⟨fun target agree => Model.objective_le_objective estimate agree, ?_⟩
  intro placement same known agree
  calc model.objective assignment
      ≤ model.objective (model.assignmentOf placement) :=
        Model.objective_le_objective estimate agree
    _ = estimatedTime sample placement := Model.objective_eq_estimatedTime same known

/-- With the first partition on host 200, the bound holds whether or not the second one is placed,
and for one of the placements that end there. -/
theorem objective_admissible_firstOfThree :
    let single : GroupKey := { procedure := "pay", host := 100, scope := .single 1 }
    let every : GroupKey := { procedure := "audit", host := 300, scope := .every }
    let paid := ((Sample.new 8).recordTransaction single 40 .far).2
    let sample := (paid.recordTransaction every 90 .far).2.reconcile
    let current := Placement.ofPairs [(100, 1), (100, 2), (200, 3)]
    let hosts : IdSet := .ofList [300]
    let model : Model ℚ := Model.build sample current hosts
    let assignment : Assignment := #[some 1, none, none]
    let further : Assignment := #[some 1, some 2, none]
    let placement := Placement.ofPairs [(200, 1), (300, 2), (100, 3)]
    (further.Extends assignment ∧ model.objective assignment ≤ model.objective further) ∧
      placement.partitions = current.partitions ∧
        (∀ entry ∈ placement.pairs, entry.1 ∈ hosts.union current.hostIds) ∧
          (model.assignmentOf placement).Extends assignment ∧
            model.objective assignment ≤ estimatedTime sample placement := by
  intro single every paid sample current hosts model assignment further placement
  have ⟨bound, below⟩ := objective_admissible (K := ℚ) sample current hosts assignment
  have agree : further.Extends assignment := by decide
  have same : placement.partitions = current.partitions := by decide
  have known : ∀ entry ∈ placement.pairs, entry.1 ∈ hosts.union current.hostIds := by decide
  have goesOn : (model.assignmentOf placement).Extends assignment := by decide
  exact ⟨⟨agree, bound further agree⟩, same, known, goesOn, below placement same known goesOn⟩

end Rebalance
