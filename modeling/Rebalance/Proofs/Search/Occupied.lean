import Rebalance.Proofs.Exact
import Rebalance.Proofs.Placement.Inverse
import Rebalance.Proofs.Search.Feasible

/-!
The hosts that an answer shows. Decoding an assignment makes a host known with the first
partition that it gets, and never takes a partition from it again. So an answer shows the hosts
that hold something in it, and drops those of the input that the search leaves empty.
-/

namespace Rebalance

variable {α : Type} [Scalar α] {limits : SearchLimits} {sample : Sample} {current : Placement}
variable {hosts : IdSet} {solution : Solution α}

theorem SearchProblem.mem_hostIds_of_found
    (found : findPlacement limits sample current hosts = some solution) {host : HostId} :
    host ∈ solution.placement.hostIds ↔
      ∃ partition, (host, partition) ∈ solution.placement.pairs := by
  obtain ⟨assignment, final, decoded, _⟩ := exists_incumbent found
  rw [decoded]
  exact Model.mem_hostIds_decode (Model.isNumbered_build sample current hosts)
    (admits_run isProper_ofSample final).1.size

/-- An answer shows the hosts of the input that hold a partition in it. So the whole cluster stays
visible in it exactly if no host is left empty. -/
theorem hostIds_of_found (limits : SearchLimits) (sample : Sample) (current : Placement)
    (hosts : IdSet) {solution : Solution α}
    (found : findPlacement limits sample current hosts = some solution) :
    (∀ host, host ∈ solution.placement.hostIds ↔ host ∈ hosts.union current.hostIds ∧
      ∃ partition, (host, partition) ∈ solution.placement.pairs) ∧
    (solution.placement.hostIds = hosts.union current.hostIds ↔
      ∀ host ∈ hosts.union current.hostIds,
        ∃ partition, (host, partition) ∈ solution.placement.pairs) := by
  have feasible := SearchProblem.feasible_of_found found
  have occupied : ∀ host, host ∈ solution.placement.hostIds ↔ host ∈ hosts.union current.hostIds ∧
      ∃ partition, (host, partition) ∈ solution.placement.pairs := by
    intro host
    rw [SearchProblem.mem_hostIds_of_found found, iff_and_self]
    rintro ⟨partition, listed⟩
    exact feasible.known _ listed
  refine ⟨occupied, fun same host listed => ?_, fun full => IdSet.ext fun host => ?_⟩
  · exact ((occupied host).1 (same ▸ listed)).2
  · rw [occupied host]
    exact and_iff_left_of_imp (full host)

/-- The partition moves to the host that pays for it from afar, and its old host is not shown. -/
theorem hostIds_of_found_drained :
    let limits : SearchLimits := { perHost := 3, moved := 1, nodes := 0 }
    let key : GroupKey := { procedure := "pay", host := 200, scope := .single 101 }
    let sample := ((Sample.new 1000).recordTransaction key 40 .far).2.reconcile
    let current := Placement.ofPairs [(100, 101)]
    let hosts : IdSet := .ofList [200]
    ∃ solution : Solution ℚ, findPlacement limits sample current hosts = some solution ∧
      solution.placement = .ofPairs [(200, 101)] ∧
        (∀ host, host ∈ solution.placement.hostIds ↔ host ∈ hosts.union current.hostIds ∧
          ∃ partition, (host, partition) ∈ solution.placement.pairs) ∧
        (solution.placement.hostIds = hosts.union current.hostIds ↔
          ∀ host ∈ hosts.union current.hostIds,
            ∃ partition, (host, partition) ∈ solution.placement.pairs) := by
  intro limits key sample current hosts
  have answered : (findPlacement limits sample current hosts : Option (Solution ℚ)).map
      (·.placement) = some (.ofPairs [(200, 101)]) := by decide +kernel
  obtain ⟨solution, found, moved⟩ := Option.map_eq_some_iff.1 answered
  exact ⟨solution, found, moved, hostIds_of_found limits sample current hosts found⟩

/-- Of two hosts one is not shown, for there is only one partition to hold. -/
theorem found_hides_emptyHost :
    let limits : SearchLimits := { perHost := 3, moved := 1, nodes := 0 }
    let key : GroupKey := { procedure := "pay", host := 200, scope := .single 101 }
    let sample := ((Sample.new 1000).recordTransaction key 40 .far).2.reconcile
    let current := Placement.ofPairs [(100, 101)]
    let hosts : IdSet := .ofList [200]
    ∃ solution : Solution Float, findPlacement limits sample current hosts = some solution ∧
      solution.placement.hostIds ≠ hosts.union current.hostIds := by
  intro limits key sample current hosts
  have fits : ∀ host, current.byPartition.values.count host ≤ limits.perHost :=
    fun host => List.count_le_length.trans (by decide)
  have answered : ∃ solution : Solution Float,
      findPlacement limits sample current hosts = some solution :=
    SearchProblem.exists_findPlacement fits
  obtain ⟨solution, found⟩ := answered
  refine ⟨solution, found, fun same => ?_⟩
  have feasible := SearchProblem.feasible_of_found found
  have shown (host : HostId) (listed : host ∈ hosts.union current.hostIds) :
      (host, 101) ∈ solution.placement.pairs := by
    obtain ⟨partition, here⟩ := (SearchProblem.mem_hostIds_of_found found).1 (same ▸ listed)
    have member : partition ∈ current.partitions :=
      feasible.partitions ▸ Placement.mem_partitions.2 ⟨host, here⟩
    have only : partition = 101 := List.mem_singleton.1 member
    exact only ▸ here
  have twice := feasible.single _ (shown 100 (by decide)) _ (shown 200 (by decide)) rfl
  cases twice

end Rebalance
