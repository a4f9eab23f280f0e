import Mathlib.Data.Finset.Fold
import Mathlib.Data.Finset.Image
import Rebalance.Proofs.Exact
import Rebalance.Schedule.Basic

/-!
The time of the two schedules of a sample in closed form. The fastest takes what the busiest
partition's groups and the groups on several partitions cost, the slowest what all groups cost:
neither the order of the chains nor the ranking by median is left in the result.
-/

namespace Rebalance

theorem GroupKey.isSingle_iff {key : GroupKey} :
    key.isSingle = true ↔ ∃ partition, key.partition? = some partition := by
  unfold isSingle partition?
  cases key.scope with
  | single partition => exact ⟨fun _ => ⟨partition, rfl⟩, fun _ => rfl⟩
  | every => simp

/-- The largest value that `f` takes on a set; zero where none is larger. -/
def largestOn {ι K : Type} [ExactField K] (set : Finset ι) (f : ι → K) : K := set.fold max 0 f

theorem largestOn_le_iff {ι K : Type} [ExactField K] {set : Finset ι} {f : ι → K} {bound : K} :
    largestOn set f ≤ bound ↔ 0 ≤ bound ∧ ∀ i ∈ set, f i ≤ bound := by
  unfold largestOn
  exact Finset.fold_max_le bound

theorem largestOn_nonneg {ι K : Type} [ExactField K] (set : Finset ι) (f : ι → K) :
    0 ≤ largestOn set f := (largestOn_le_iff.1 le_rfl).1

namespace Sample

theorem filter_range_map {β γ : Type} (xs : List β) (p : β → Bool) (f : β → γ) (other : γ) :
    ((List.range xs.length).filter fun i => (xs[i]?).any p).map
      (fun i => ((xs[i]?).map f).getD other) = (xs.filter p).map f := by
  induction xs with
  | nil => rfl
  | cons x xs ih =>
    rw [List.length_cons, List.range_succ_eq_map, List.filter_cons, List.filter_map,
      List.filter_cons]
    simp only [List.getElem?_cons_zero, Option.any_some]
    by_cases chosen : p x = true
    · rw [if_pos chosen, if_pos chosen]
      simpa [Function.comp_def] using ih
    · rw [if_neg chosen, if_neg chosen]
      simpa [Function.comp_def] using ih

/-- The groups listed by index are the groups themselves, in their order. -/
theorem map_idsWhere {β : Type} (sample : Sample) (p : Group → Bool) (f : Group → β)
    (other : β) :
    (idsWhere sample.groups p).map (fun id => ((sample.group? id).map f).getD other) =
      (sample.groups.toList.filter p).map f := by
  rw [← filter_range_map sample.groups.toList p f other]
  simp [idsWhere, group?]

def groupsOn (sample : Sample) (partition : PartitionId) : List Group :=
  sample.groups.toList.filter (·.key.partition? = some partition)

def multis (sample : Sample) : List Group := sample.groups.toList.filter (!·.key.isSingle)

def singlePartitions (sample : Sample) : Finset PartitionId :=
  (sample.groups.toList.filterMap (·.key.partition?)).toFinset

variable {K : Type} [ExactField K]

/-- What the groups of the busiest partition cost together; zero where no group touches a
single partition. -/
def busiestCost (sample : Sample) (cost : Group → K) : K :=
  largestOn sample.singlePartitions fun partition => ((sample.groupsOn partition).map cost).sum

def multiCost (sample : Sample) (cost : Group → K) : K := (sample.multis.map cost).sum

def totalCost (sample : Sample) (cost : Group → K) : K := (sample.groups.toList.map cost).sum

/-- The cost of a group by its index; an index without a group costs nothing. -/
def costById (sample : Sample) (cost : Group → K) (id : GroupId) : K :=
  ((sample.group? id).map cost).getD 0

theorem mem_singlePartitions {sample : Sample} {partition : PartitionId} :
    partition ∈ sample.singlePartitions ↔
      ∃ group ∈ sample.groups.toList, group.key.partition? = some partition := by
  rw [singlePartitions, List.mem_toFinset, List.mem_filterMap]

theorem sum_costById (sample : Sample) (p : Group → Bool) (cost : Group → K) :
    ((idsWhere sample.groups p).map (sample.costById cost)).sum =
      ((sample.groups.toList.filter p).map cost).sum :=
  congrArg List.sum (sample.map_idsWhere p cost 0)

theorem totalCost_eq (sample : Sample) (cost : Group → K) : sample.totalCost cost =
    ((sample.groups.toList.filter (·.key.isSingle)).map cost).sum + sample.multiCost cost := by
  rw [multiCost, multis, ← List.sum_append, ← List.map_append]
  exact ((List.filter_append_perm _ _).map cost).sum_eq.symm

/-- The busiest partition's groups are some of the groups on a single partition. -/
theorem busiestCost_add_multiCost_le {sample : Sample} {cost : Group → K}
    (above : ∀ group ∈ sample.groups.toList, 0 ≤ cost group) :
    sample.busiestCost cost + sample.multiCost cost ≤ sample.totalCost cost := by
  have charged : ∀ x ∈ (sample.groups.toList.filter (·.key.isSingle)).map cost, 0 ≤ x := by
    intro x listed
    obtain ⟨group, member, rfl⟩ := List.mem_map.1 listed
    exact above group (List.mem_of_mem_filter member)
  rw [totalCost_eq, add_le_add_iff_right, busiestCost, largestOn_le_iff]
  refine ⟨List.sum_nonneg charged, fun partition _ => ?_⟩
  have among : (sample.groupsOn partition).Sublist
      (sample.groups.toList.filter (·.key.isSingle)) :=
    List.monotone_filter_right _ fun group touched =>
      GroupKey.isSingle_iff.2 ⟨partition, of_decide_eq_true touched⟩
  exact (among.map cost).sum_le_sum charged

end Sample

namespace Schedule

def chainOf (members : List (GroupId × PartitionId)) (partition : PartitionId) : List GroupId :=
  (members.filter (·.2 = partition)).map (·.1)

theorem chainsOf_concat (members : List (GroupId × PartitionId)) (member : GroupId × PartitionId) :
    chainsOf (members ++ [member]) =
      (chainsOf members).upsert member.2 fun chain => chain.getD [] ++ [member.1] := by
  unfold chainsOf
  rw [List.foldl_append]
  rfl

theorem chainOf_concat (members : List (GroupId × PartitionId)) (member : GroupId × PartitionId)
    (partition : PartitionId) :
    chainOf (members ++ [member]) partition =
      if member.2 = partition then chainOf members partition ++ [member.1]
      else chainOf members partition := by
  unfold chainOf
  rw [List.filter_append, List.map_append]
  by_cases here : member.2 = partition
  · simp [here]
  · simp [here]

/-- A concurrent block has a chain for each partition that has members. -/
theorem get?_chainsOf (members : List (GroupId × PartitionId)) (partition : PartitionId) :
    (chainsOf members).get? partition =
      if chainOf members partition = [] then none else some (chainOf members partition) := by
  induction members using List.reverseRecOn with
  | nil => rfl
  | append_singleton members member ih =>
    rw [chainsOf_concat, IdMap.get?_upsert, chainOf_concat]
    by_cases here : partition = member.2
    · subst here
      have chain : ((chainsOf members).get? member.2).getD [] = chainOf members member.2 := by
        rw [ih]
        split
        · next empty => exact empty.symm
        · rfl
      simp [chain]
    · simpa only [here, Ne.symm here, if_false] using ih

theorem mem_values_chainsOf {members : List (GroupId × PartitionId)} {chain : List GroupId} :
    chain ∈ (chainsOf members).values ↔
      ∃ partition, chainOf members partition ≠ [] ∧ chain = chainOf members partition := by
  unfold IdMap.values
  rw [List.mem_map]
  constructor
  · rintro ⟨⟨partition, chain⟩, listed, rfl⟩
    have found := IdMap.get?_eq_some_iff.2 listed
    rw [get?_chainsOf] at found
    split at found
    · cases found
    · next filled => exact ⟨partition, filled, (Option.some.inj found).symm⟩
  · rintro ⟨partition, filled, rfl⟩
    refine ⟨(partition, chainOf members partition), IdMap.get?_eq_some_iff.1 ?_, rfl⟩
    rw [get?_chainsOf, if_neg filled]

theorem chainOf_filterMap (touched : GroupId → Option PartitionId) (ids : List GroupId)
    (partition : PartitionId) :
    chainOf (ids.filterMap fun id => (touched id).map fun p => (id, p)) partition =
      ids.filter fun id => touched id = some partition := by
  induction ids with
  | nil => rfl
  | cons id ids ih =>
    rw [List.filterMap_cons, List.filter_cons]
    cases known : touched id with
    | none => simpa using ih
    | some p =>
      unfold chainOf at ih ⊢
      by_cases here : p = partition
      · simpa [here] using ih
      · simpa [here] using ih

theorem chainOf_singles (sample : Sample) (partition : PartitionId) :
    chainOf (singles sample) partition =
      idsWhere sample.groups fun group => group.key.partition? = some partition := by
  unfold singles
  rw [chainOf_filterMap, Sample.singleIds, sample.listed_single, idsWhere, idsWhere, List.filter_filter]
  apply List.filter_congr
  intro id _
  unfold Sample.group?
  cases sample.groups[id]? with
  | none => rfl
  | some group =>
    have single : group.key.partition? = some partition → group.key.isSingle = true :=
      fun touched => GroupKey.isSingle_iff.2 ⟨partition, touched⟩
    simpa using single

theorem chainOf_singles_ne_nil {sample : Sample} {partition : PartitionId} :
    chainOf (singles sample) partition ≠ [] ↔ partition ∈ sample.singlePartitions := by
  rw [chainOf_singles, Sample.mem_singlePartitions]
  constructor
  · intro filled
    obtain ⟨id, listed⟩ := List.exists_mem_of_ne_nil _ filled
    obtain ⟨group, found, touched⟩ := mem_idsWhere.1 listed
    exact ⟨group, Array.mem_toList_iff.2 (Array.mem_of_getElem? found), of_decide_eq_true touched⟩
  · rintro ⟨group, listed, touched⟩
    obtain ⟨id, found⟩ := Array.mem_iff_getElem?.1 (Array.mem_toList_iff.1 listed)
    exact List.ne_nil_of_mem (mem_idsWhere.2 ⟨group, found, decide_eq_true touched⟩)

variable {K : Type} [ExactField K]

theorem time_append (cost : GroupId → K) (first second : Schedule) :
    Schedule.time cost (first ++ second) = first.time cost + second.time cost := by
  unfold Schedule.time
  rw [Scalar.sum_eq, Scalar.sum_eq, Scalar.sum_eq, List.map_append, List.sum_append]

theorem time_serial (cost : GroupId → K) (ids : List GroupId) :
    Schedule.time cost (ids.map Block.serial) = (ids.map cost).sum := by
  unfold Schedule.time
  rw [Scalar.sum_eq, List.map_map]
  rfl

/-- A block of all single-partition groups takes as long as the busiest partition. -/
theorem time_concurrent_singles (sample : Sample) (cost : Group → K) :
    (Block.concurrent (chainsOf (singles sample))).time (sample.costById cost) =
      sample.busiestCost cost := by
  have chain (partition : PartitionId) :
      Scalar.sum ((chainOf (singles sample) partition).map (sample.costById cost)) =
        ((sample.groupsOn partition).map cost).sum := by
    rw [Scalar.sum_eq, chainOf_singles, Sample.sum_costById]
    rfl
  refine eq_of_forall_ge_iff fun bound => ?_
  rw [Block.time, Scalar.largest_le_iff, Sample.busiestCost, largestOn_le_iff]
  refine and_congr_right fun _ => ?_
  constructor
  · intro below partition member
    rw [← chain]
    apply below
    exact List.mem_map_of_mem
      (mem_values_chainsOf.2 ⟨partition, chainOf_singles_ne_nil.2 member, rfl⟩)
  · intro below total listed
    obtain ⟨_, inside, rfl⟩ := List.mem_map.1 listed
    obtain ⟨partition, filled, rfl⟩ := mem_values_chainsOf.1 inside
    rw [chain]
    exact below partition (chainOf_singles_ne_nil.1 filled)

/-- The fastest schedule takes what the busiest partition's groups and the groups on several
partitions cost. -/
theorem time_best (sample : Sample) (cost : Group → K) :
    (best sample).time (sample.costById cost) =
      sample.busiestCost cost + sample.multiCost cost := by
  have block : Schedule.time (sample.costById cost)
      (if (singles sample).isEmpty then [] else [.concurrent (chainsOf (singles sample))]) =
        sample.busiestCost cost := by
    rw [← time_concurrent_singles]
    split
    · next empty =>
      rw [List.isEmpty_iff.1 empty]
      rfl
    · unfold Schedule.time
      rw [Scalar.sum_eq, List.map_singleton, List.sum_singleton]
  unfold best
  rw [time_append, block, time_serial]
  rw [Sample.multiIds, sample.listed_multi]
  exact congrArg _ (sample.sum_costById _ cost)

/-- A single-partition group in a block of its own takes what it costs. -/
theorem time_lone {sample : Sample} {cost : Group → K}
    (above : ∀ group ∈ sample.groups.toList, 0 ≤ cost group) {id : GroupId}
    (listed : id ∈ sample.singleIds) :
    (lone sample id).time (sample.costById cost) = sample.costById cost id := by
  obtain ⟨group, found, single⟩ := Sample.mem_singleIds.1 listed
  obtain ⟨partition, touched⟩ := GroupKey.isSingle_iff.1 single
  have member : group ∈ sample.groups.toList :=
    Array.mem_toList_iff.2 (Array.mem_of_getElem? found)
  have known : (sample.group? id).bind (·.key.partition?) = some partition := by
    rw [found]
    exact touched
  have values : (chainsOf [(id, partition)]).values = [[id]] := rfl
  unfold lone Sample.costById
  rw [known]
  simp only [Block.time, values, found, List.map_cons, List.map_nil, Scalar.sum_eq,
    Scalar.largest, List.foldl_cons, List.foldl_nil, Scalar.maximum_eq, Scalar.zero_eq,
    Option.map_some, Option.getD_some, List.sum_singleton]
  exact max_eq_right (above group member)

/-- Groups in turn take what they cost, for the rest of the single-partition groups is not
side by side. -/
theorem time_interleave {sample : Sample} {cost : Group → K}
    (above : ∀ group ∈ sample.groups.toList, 0 ≤ cost group) (singles multis : List GroupId)
    (listed : ∀ id ∈ singles, id ∈ sample.singleIds) :
    (interleave sample singles multis).time (sample.costById cost) =
      (singles.map (sample.costById cost)).sum + (multis.map (sample.costById cost)).sum := by
  fun_induction interleave sample singles multis with
  | case1 single singles multi multis ih =>
    have rest := ih fun id member => listed id (List.mem_cons_of_mem single member)
    unfold Schedule.time at rest ⊢
    rw [Scalar.sum_eq] at rest ⊢
    simp only [List.map_cons, List.sum_cons, Block.time, rest]
    rw [← add_assoc, add_add_add_comm]
  | case2 multis => rw [time_serial, List.map_nil, List.sum_nil, zero_add]
  | case3 singles =>
    unfold Schedule.time
    rw [Scalar.sum_eq, List.map_map, List.map_nil, List.sum_nil, add_zero]
    refine congrArg List.sum (List.map_congr_left fun id member => ?_)
    exact time_lone above (listed id member)

theorem slowestFirst_perm (sample : Sample) (ids : List GroupId) :
    (slowestFirst sample ids).Perm ids := List.mergeSort_perm _ _

/-- The slowest schedule takes what all groups cost. -/
theorem time_worst {sample : Sample} {cost : Group → K}
    (above : ∀ group ∈ sample.groups.toList, 0 ≤ cost group) :
    (worst sample).time (sample.costById cost) = sample.totalCost cost := by
  have singles := slowestFirst_perm sample sample.singleIds
  have multis := slowestFirst_perm sample sample.multiIds
  unfold worst
  rw [time_interleave above _ _ fun id => singles.mem_iff.1,
    (singles.map (sample.costById cost)).sum_eq, (multis.map (sample.costById cost)).sum_eq,
    Sample.singleIds, Sample.multiIds, sample.listed_single, sample.listed_multi,
    Sample.sum_costById, Sample.sum_costById]
  exact (sample.totalCost_eq cost).symm

end Schedule

end Rebalance
