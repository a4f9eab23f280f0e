import Rebalance.Proofs.Placement.Encoding

/-!
What a placement costs, told without numbers. The cost of a group under a placement reads
the partition view only, so it does not depend on which hosts a model numbers besides those
that hold partitions: every model with the same partitions gives a placement the same
estimate, whatever the arithmetic.
-/

namespace Rebalance

namespace Placement

/-- Whether a partition is served away from a host; one that is not placed is. -/
def isAway (placement : Placement) (initiator : HostId) (partition : PartitionId) : Bool :=
  placement.byPartition.get? partition != some initiator

end Placement

namespace Group

variable {α : Type} [Scalar α]

def baseCost (group : Group) (latency : GroupLatency) : α :=
  Scalar.ofCount group.transactions * Scalar.ofCount latency.near.ns

def awayCost (group : Group) (latency : GroupLatency) (partition : PartitionId) : α :=
  Scalar.ofCount group.transactions * Scalar.ofCount (latency.penalty partition).ns

def costUnder (placement : Placement) (group : Group) : α :=
  let partitions := placement.partitions.toList
  match group.latency with
  | none => Scalar.zero + Scalar.largest (partitions.map fun _ => Scalar.zero)
  | some latency =>
    match group.key.scope with
    | .single partition =>
      if placement.isAway group.key.host partition then
        group.baseCost latency + group.awayCost latency partition
      else group.baseCost latency
    | .every =>
      let away := partitions.filter (placement.isAway group.key.host)
      group.baseCost latency + Scalar.largest (away.map (group.awayCost latency))

end Group

namespace CostTerm

variable {α : Type}

theorem isAway_mono {initiator partition : Option Nat} {assignment target : Assignment}
    (agree : target.Extends assignment) (away : isAway initiator assignment partition = true) :
    isAway initiator target partition = true := by
  unfold isAway at away ⊢
  cases initiator with
  | none => rfl
  | some home =>
    cases partition with
    | none => rfl
    | some number =>
      cases chosen : assignment[number]?.getD none with
      | none => simp [chosen] at away
      | some host =>
        have kept : target[number]?.getD none = some host := agree number host chosen
        simpa [chosen, kept] using away

theorem awayCosts_sublist {initiator : Option Nat} {assignment target : Assignment}
    (agree : target.Extends assignment) (index : Nat) (costs : List α) :
    (awayCosts initiator assignment index costs).Sublist
      (awayCosts initiator target index costs) := by
  induction costs generalizing index with
  | nil => exact .slnil
  | cons cost costs ih =>
    rw [awayCosts, awayCosts]
    by_cases away : isAway initiator assignment (some index) = true
    · rw [if_pos away, if_pos (isAway_mono agree away)]
      exact (ih (index + 1)).cons_cons cost
    · rw [if_neg away]
      split
      · exact (ih (index + 1)).cons cost
      · exact ih (index + 1)

/-- The costs picked by number are those of the elements that satisfy `q`. -/
theorem awayCosts_map {β : Type} {initiator : Option Nat} {assignment : Assignment}
    {xs : List β} {f : β → α} {q : β → Bool} {index : Nat}
    (agree : ∀ i x, xs[i]? = some x → isAway initiator assignment (some (index + i)) = q x) :
    awayCosts initiator assignment index (xs.map f) = (xs.filter q).map f := by
  induction xs generalizing index with
  | nil => rfl
  | cons x xs ih =>
    have first := agree 0 x rfl
    rw [Nat.add_zero] at first
    have rest : awayCosts initiator assignment (index + 1) (xs.map f) = (xs.filter q).map f := by
      apply ih
      intro i y found
      have later := agree (i + 1) y found
      rwa [show index + (i + 1) = index + 1 + i by omega] at later
    rw [List.map_cons, awayCosts, first, rest, List.filter_cons]
    cases q x <;> rfl

theorem awayCosts_none (assignment : Assignment) (index : Nat) (costs : List α) :
    awayCosts none assignment index costs = costs := by
  induction costs generalizing index with
  | nil => rfl
  | cons cost costs ih =>
    rw [awayCosts, if_pos (show isAway none assignment (some index) = true from rfl), ih]

end CostTerm

namespace Model

section
variable {α : Type} {model : Model α} {placement : Placement}

theorem isAway_assignmentOf (numbered : model.IsNumbered)
    (partitions : model.partitions = placement.partitions.toList)
    (known : ∀ entry ∈ placement.pairs, entry.1 ∈ model.hosts) (initiator : HostId)
    {number : Nat} {partition : PartitionId} (here : model.partitions[number]? = some partition) :
    CostTerm.isAway (model.hostNumber initiator) (model.assignmentOf placement) (some number) =
      placement.isAway initiator partition := by
  have member : partition ∈ placement.partitions := by
    rw [IdSet.mem_def, ← partitions]
    exact List.mem_of_getElem? here
  obtain ⟨host, found⟩ := Placement.exists_byPartition member
  obtain ⟨index, encoded⟩ :=
    exists_hostNumber numbered (known _ (Placement.mem_pairs_of_byPartition found))
  have assigned : (model.assignmentOf placement)[number]?.getD none = some index := by
    have at_ := model.hostAt_assignmentOf placement number
    rw [here, Option.bind_some, found, Option.bind_some, encoded] at at_
    exact at_
  rw [Placement.isAway, found]
  cases numberOf : model.hostNumber initiator with
  | none =>
    have differs : host ≠ initiator := by
      rintro rfl
      rw [encoded] at numberOf
      cases numberOf
    simp [CostTerm.isAway, differs]
  | some home =>
    have differ : index = home ↔ host = initiator := by
      constructor
      · rintro rfl
        exact hostNumber_inj numbered encoded numberOf
      · rintro rfl
        exact Option.some.inj (encoded.symm.trans numberOf)
    simp only [CostTerm.isAway, assigned]
    apply Bool.eq_iff_iff.2
    simp [differ]

end

variable {α : Type} [Scalar α]

theorem isNumbered_build (sample : Sample) (current : Placement) (hosts : IdSet) :
    (build sample current hosts : Model α).IsNumbered where
  hosts := IdSet.nodup _
  partitions := IdSet.nodup _

theorem partitions_build (sample : Sample) (current : Placement) (hosts : IdSet) :
    (build sample current hosts : Model α).partitions = current.partitions.toList := rfl

theorem cost_ofGroup {model : Model α} {placement : Placement} (numbered : model.IsNumbered)
    (partitions : model.partitions = placement.partitions.toList)
    (known : ∀ entry ∈ placement.pairs, entry.1 ∈ model.hosts) (group : Group) :
    (CostTerm.ofGroup model.hosts model.partitions group : CostTerm α).cost
      (model.assignmentOf placement) = group.costUnder placement := by
  unfold CostTerm.ofGroup Group.costUnder
  cases group.latency with
  | none => simp only [CostTerm.cost, CostTerm.awayCosts_none, partitions]
  | some latency =>
    cases touched : group.key.scope with
    | single partition =>
      have away : CostTerm.isAway (model.hosts.idxOf? group.key.host)
          (model.assignmentOf placement) (model.partitions.idxOf? partition) =
            placement.isAway group.key.host partition := by
        cases numberOf : model.partitions.idxOf? partition with
        | none =>
          have absent : placement.byPartition.get? partition = none := by
            rw [← Option.not_isSome_iff_eq_none, Placement.isSome_byPartition, IdSet.mem_def,
              ← partitions]
            exact List.idxOf?_eq_none_iff.1 numberOf
          rw [Placement.isAway, absent]
          cases model.hosts.idxOf? group.key.host <;> rfl
        | some number =>
          obtain ⟨bound, same, _⟩ := List.idxOf?_eq_some_iff.1 numberOf
          exact isAway_assignmentOf numbered partitions known _
            (List.getElem?_eq_some_iff.2 ⟨bound, same⟩)
      simp only [CostTerm.cost, away]
      rfl
    | every =>
      have away : CostTerm.awayCosts (model.hosts.idxOf? group.key.host)
          (model.assignmentOf placement) 0
          (model.partitions.map (group.awayCost latency : PartitionId → α)) =
            (model.partitions.filter (placement.isAway group.key.host)).map
              (group.awayCost latency) := by
        apply CostTerm.awayCosts_map
        intro i partition here
        rw [Nat.zero_add]
        exact isAway_assignmentOf numbered partitions known _ here
      simp only [CostTerm.cost]
      rw [← partitions, ← away]
      rfl

/-- The estimate of a sample's groups at their costs under a placement. -/
theorem objective_assignmentOf {sample : Sample} {current placement : Placement} {hosts : IdSet}
    (same : placement.partitions = current.partitions)
    (known : ∀ entry ∈ placement.pairs, entry.1 ∈ hosts.union current.hostIds) :
    let model : Model α := build sample current hosts
    let cost (group : GroupId) : α :=
      (sample.groups.map (·.costUnder placement)).getD group Scalar.zero
    model.objective (model.assignmentOf placement) =
      sample.singleShare * (Schedule.best sample).time cost +
        (Scalar.one - sample.singleShare) * (Schedule.worst sample).time cost := by
  intro model
  have costs : model.terms.map (·.cost (model.assignmentOf placement)) =
      sample.groups.map (·.costUnder placement) := by
    show (sample.groups.map _).map _ = _
    rw [Array.map_map]
    refine congrArg (Array.map · sample.groups) (funext fun group => ?_)
    exact cost_ofGroup (isNumbered_build sample current hosts)
      (congrArg IdSet.toList same).symm known group
  simp only [objective, costs]
  rfl

/-- Any model of the same partitions that numbers the hosts in use estimates a placement as
the placement's own model does. -/
theorem objective_eq_estimatedTime {sample : Sample} {current placement : Placement}
    {hosts : IdSet} (same : placement.partitions = current.partitions)
    (known : ∀ entry ∈ placement.pairs, entry.1 ∈ hosts.union current.hostIds) :
    (build sample current hosts : Model α).objective
      ((build sample current hosts : Model α).assignmentOf placement) =
        estimatedTime sample placement := by
  have own : ∀ entry ∈ placement.pairs, entry.1 ∈ placement.hostIds.union placement.hostIds :=
    fun entry listed => IdSet.mem_union.2 (.inl (Placement.mem_hostIds_of_mem_pairs listed))
  exact (objective_assignmentOf same known).trans (objective_assignmentOf rfl own).symm

end Model

end Rebalance
