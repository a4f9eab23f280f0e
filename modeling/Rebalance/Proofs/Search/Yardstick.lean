import Rebalance.Proofs.Search.Feasible

/-!
One yardstick for the search and for those who read its answers. A placement has the same
estimate in every model that numbers its partitions and the hosts it uses. So an answer carries
the estimate of its own placement, although the decoded placement leaves out the hosts that
hold nothing and is then measured in a model that numbers fewer hosts.
-/

namespace Rebalance

variable {α : Type} [Scalar α]

namespace Model

/-- Where a model numbers the hosts of a placement, it numbers the host of every pair. -/
theorem known_of_hostIds {placement : Placement} {hosts : IdSet}
    (known : ∀ host ∈ placement.hostIds, host ∈ hosts) :
    ∀ entry ∈ placement.pairs, entry.1 ∈ hosts := by
  intro entry listed
  exact known entry.1 (Placement.mem_hostIds_of_mem_pairs listed)

end Model

namespace SearchProblem

/-- Encoding the placement of an admitted assignment gives the assignment back, and the host
numbers that the placement no longer mentions do not change what it costs. -/
theorem objective_eq_estimatedTime_decode {limits : SearchLimits} {sample : Sample}
    {current : Placement} {hosts : IdSet} {assignment : Assignment}
    (admits : Admits (ofSample limits sample current hosts : SearchProblem α) assignment) :
    (Model.build sample current hosts : Model α).objective assignment =
      estimatedTime sample ((Model.build sample current hosts : Model α).decode assignment) := by
  have numbered : (Model.build sample current hosts : Model α).IsNumbered :=
    Model.isNumbered_build sample current hosts
  have feasible := feasible_decode admits
  rw [← Model.objective_eq_estimatedTime feasible.partitions feasible.known,
    Model.assignmentOf_decode_eq numbered admits.size admits.inRange]

theorem estimate_of_found {limits : SearchLimits} {sample : Sample} {current : Placement}
    {hosts : IdSet} {solution : Solution α}
    (found : findPlacement limits sample current hosts = some solution) :
    solution.estimate = estimatedTime sample solution.placement := by
  obtain ⟨assignment, final, decoded, _⟩ := exists_incumbent found
  obtain ⟨admits, estimate⟩ := admits_run isProper_ofSample final
  rw [decoded, ← objective_eq_estimatedTime_decode admits]
  exact estimate

end SearchProblem

/-- Every model of the same partitions that numbers a placement's hosts estimates it as its own
model does, and every answer carries the estimate of its placement. No law of the arithmetic is
used. -/
theorem estimates_agree (sample : Sample) (current : Placement) (hosts : IdSet) :
    (∀ placement : Placement, placement.partitions = current.partitions →
      (∀ host ∈ placement.hostIds, host ∈ hosts.union current.hostIds) →
        let model : Model α := Model.build sample current hosts
        model.objective (model.assignmentOf placement) = estimatedTime sample placement) ∧
    (∀ (limits : SearchLimits) (solution : Solution α),
      findPlacement limits sample current hosts = some solution →
        solution.estimate = estimatedTime sample solution.placement) := by
  constructor
  · intro placement same known
    exact Model.objective_eq_estimatedTime same (Model.known_of_hostIds known)
  · intro limits solution found
    exact SearchProblem.estimate_of_found found

theorem estimates_agree_unknownInitiator :
    let limits : SearchLimits := { perHost := 2, moved := 1, nodes := 3 }
    let key : GroupKey := { procedure := "pay", host := 300, scope := .every }
    let sample := ((Sample.new 8).recordTransaction key 40 .far).2.reconcile
    let current := Placement.ofPairs [(100, 1), (100, 2), (200, 3)]
    let target := Placement.ofPairs [(100, 2), (200, 1), (200, 3)]
    let model : Model Float := Model.build sample current (.ofList [300])
    model.objective (model.assignmentOf target) = estimatedTime sample target ∧
      ∃ solution : Solution Float,
        findPlacement limits sample current (.ofList [300]) = some solution ∧
          solution.estimate = estimatedTime sample solution.placement := by
  intro limits key sample current target model
  have fits : ∀ host, current.byPartition.values.count host ≤ limits.perHost := by
    intro host
    have values : current.byPartition.values = [100, 100, 200] := by decide
    rw [values]
    simp only [List.count_cons, List.count_nil, limits]
    grind
  have answered : ∃ solution : Solution Float,
      findPlacement limits sample current (.ofList [300]) = some solution :=
    SearchProblem.exists_findPlacement fits
  obtain ⟨solution, found⟩ := answered
  -- The search numbers host 300 and the target's own model does not.
  have measured : model.objective (model.assignmentOf target) = estimatedTime sample target :=
    (estimates_agree sample current (.ofList [300])).1 target (by decide) (by decide)
  have own : solution.estimate = estimatedTime sample solution.placement :=
    (estimates_agree sample current (.ofList [300])).2 limits solution found
  exact ⟨measured, solution, found, own⟩

end Rebalance
