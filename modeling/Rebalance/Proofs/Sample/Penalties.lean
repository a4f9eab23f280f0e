import Rebalance.Proofs.Sample.Figures
import Rebalance.Proofs.Sample.Filing

/-!
The latencies that a sample has of a partition under a key. They are spread over the groups of
the key, and as only the newest group takes any, each is added behind those there are.
-/

namespace Rebalance

def Group.penaltySamples (group : Group) (partition : PartitionId) : List Nat :=
  ((group.partitions.get? partition).map fun samples => samples.buffer.samples.toList).getD []

theorem Group.penaltySamples_recordTransaction (group : Group) (ns : Int) (locality : Locality)
    (partition : PartitionId) :
    (group.recordTransaction ns locality).penaltySamples partition =
      group.penaltySamples partition := by
  cases locality with
  | near => rfl
  | far => rfl

theorem Group.penaltySamples_recordPartition (group : Group) (charge : PartitionId × Int)
    (isEstimate : Bool) (partition : PartitionId) :
    (group.recordPartition charge.1 charge.2 isEstimate).penaltySamples partition =
      group.penaltySamples partition ++ latenciesOf partition [charge] := by
  unfold penaltySamples recordPartition
  rw [latenciesOf_singleton]
  simp only [IdMap.get?_upsert]
  by_cases here : charge.1 = partition
  · subst here
    rw [if_pos rfl, if_pos rfl]
    cases group.partitions.get? charge.1 with
    | none => rfl
    | some samples => exact Array.toList_push
  · rw [if_neg (Ne.symm here), if_neg here, List.append_nil]

namespace Sample

variable {sample : Sample} {key other : GroupKey} {id : GroupId} {partition : PartitionId}

def groupsOf (sample : Sample) (key : GroupKey) : List Group :=
  sample.groups.toList.filter (·.key = key)

def penaltySamples (sample : Sample) (key : GroupKey) (partition : PartitionId) : List Nat :=
  (sample.groups.toList.filter (·.key = key)).flatMap (·.penaltySamples partition)

def IsNewest (sample : Sample) (key : GroupKey) (id : GroupId) : Prop :=
  ∃ before group after, sample.groups.toList = before ++ group :: after ∧ before.length = id ∧
    group.key = key ∧ ∀ other ∈ after, other.key ≠ key

theorem isNewest_of_newestId? (found : sample.newestId? key = some id) :
    sample.IsNewest key id := by
  obtain ⟨listed, greatest⟩ := newestId?_eq_some_iff.1 found
  obtain ⟨group, here, same⟩ := mem_subgroups.1 listed
  rw [group?, ← Array.getElem?_toList] at here
  obtain ⟨inside, rfl⟩ := List.getElem?_eq_some_iff.1 here
  refine ⟨sample.groups.toList.take id, _, sample.groups.toList.drop (id + 1), ?_, ?_, same, ?_⟩
  · rw [List.getElem_cons_drop, List.take_append_drop]
  · rw [List.length_take, Nat.min_eq_left (Nat.le_of_lt inside)]
  · -- A group behind it has a greater index.
    intro other behind equal
    obtain ⟨n, there⟩ := List.mem_iff_getElem?.1 behind
    rw [List.getElem?_drop, Array.getElem?_toList] at there
    have earlier : id + 1 + n ≤ id := greatest _ (mem_subgroups.2 ⟨other, there, equal⟩)
    exact absurd (Nat.le_of_add_right_le earlier) (Nat.not_succ_le_self id)

/-- The group stands at its index, and is all of the sample that a change to it changes. -/
theorem IsNewest.modify (newest : sample.IsNewest key id) : ∃ before group after,
    sample.groups.toList = before ++ group :: after ∧ sample.group? id = some group ∧
      group.key = key ∧ (∀ other ∈ after, other.key ≠ key) ∧ ∀ f keeps,
        (sample.modifyGroup id f keeps).groups.toList = before ++ f group :: after := by
  obtain ⟨before, group, after, listed, length, same, others⟩ := newest
  refine ⟨before, group, after, listed, ?_, same, others, fun f keeps => ?_⟩
  · rw [group?, ← Array.getElem?_toList, listed, ← length,
      List.getElem?_append_right (Nat.le_refl _), Nat.sub_self]
    rfl
  · rw [modifyGroup, Array.toList_modify, listed, ← length, List.modify_eq_take_drop,
      List.take_left, List.drop_left]
    rfl

/-- What is done to the newest group of a key is done to the last of its groups only. -/
theorem IsNewest.groupsOf (newest : sample.IsNewest key id) : ∃ earlier group,
    sample.groupsOf key = earlier ++ [group] ∧ sample.group? id = some group ∧ ∀ f keeps,
      (sample.modifyGroup id f keeps).groupsOf key = earlier ++ [f group] ∧
        ∀ other ≠ key, (sample.modifyGroup id f keeps).groupsOf other = sample.groupsOf other := by
  obtain ⟨before, group, after, listed, here, same, others, modified⟩ := newest.modify
  have behind : after.filter (·.key = key) = [] :=
    List.filter_eq_nil_iff.2 fun later member => by simpa using others later member
  refine ⟨before.filter (·.key = key), group, ?_, here, fun f keeps => ?_⟩
  · rw [Sample.groupsOf, listed, List.filter_append, List.filter_cons_of_pos (by simp [same]),
      behind]
  · unfold Sample.groupsOf
    rw [modified, listed]
    constructor
    · rw [List.filter_append, List.filter_cons_of_pos (by simp [keeps, same]), behind]
    · intro other differs
      have foreign : group.key ≠ other := fun equal => differs (equal.symm.trans same)
      rw [List.filter_append, List.filter_append,
        List.filter_cons_of_neg (by simp [keeps, foreign]),
        List.filter_cons_of_neg (by simp [foreign])]

theorem toList_openGroup (sample : Sample) (key : GroupKey) :
    (sample.openGroup key).2.groups.toList = sample.groups.toList ++ [Group.new key] :=
  Array.toList_push

theorem openGroup_spec (sample : Sample) (key : GroupKey) :
    (sample.openGroup key).2.IsNewest key (sample.openGroup key).1 ∧
      ∀ other partition, (sample.openGroup key).2.penaltySamples other partition =
        sample.penaltySamples other partition := by
  have listed := sample.toList_openGroup key
  constructor
  · exact ⟨sample.groups.toList, Group.new key, [], listed, Array.length_toList, rfl,
      fun _ member => absurd member List.not_mem_nil⟩
  · intro other partition
    rw [penaltySamples, listed, List.filter_append, List.flatMap_append, penaltySamples,
      List.filter_singleton]
    cases decide ((Group.new key).key = other) <;> exact List.append_nil _

/-- The group that takes a transaction or a partition latency is the newest of its key. -/
theorem groupForPartition_spec (sample : Sample) (key : GroupKey) :
    (sample.groupForPartition key).2.IsNewest key (sample.groupForPartition key).1 ∧
      ∀ other partition, (sample.groupForPartition key).2.penaltySamples other partition =
        sample.penaltySamples other partition := by
  unfold groupForPartition
  split
  · next id found => exact ⟨isNewest_of_newestId? found, fun _ _ => rfl⟩
  · exact openGroup_spec sample key

theorem groupForTransaction_spec (sample : Sample) (key : GroupKey) :
    (sample.groupForTransaction key).2.IsNewest key (sample.groupForTransaction key).1 ∧
      ∀ other partition, (sample.groupForTransaction key).2.penaltySamples other partition =
        sample.penaltySamples other partition := by
  unfold groupForTransaction
  split
  · next id found =>
    split
    · exact ⟨isNewest_of_newestId? found, fun _ _ => rfl⟩
    · exact openGroup_spec sample key
  · exact openGroup_spec sample key

/-- What is added to the newest group of a key is added behind all that the key has. -/
theorem penaltySamples_modifyGroup (newest : sample.IsNewest key id) (f : Group → Group)
    (added : List Nat) (keeps : ∀ group, (f group).key = group.key)
    (adds : ∀ group, (f group).penaltySamples partition =
      group.penaltySamples partition ++ added) (other : GroupKey) :
    (sample.modifyGroup id f keeps).penaltySamples other partition =
      sample.penaltySamples other partition ++ if other = key then added else [] := by
  obtain ⟨earlier, group, split, _, modified⟩ := newest.groupsOf
  obtain ⟨own, elsewhere⟩ := modified f keeps
  unfold penaltySamples
  change ((sample.modifyGroup id f keeps).groupsOf other).flatMap _ =
    (sample.groupsOf other).flatMap _ ++ _
  by_cases here : other = key
  · -- The newest group ends what the key has.
    rw [here, own, split, List.flatMap_append, List.flatMap_append, List.flatMap_singleton,
      List.flatMap_singleton, adds, if_pos rfl, List.append_assoc]
  · rw [elsewhere other here, if_neg here, List.append_nil]

theorem penaltySamples_recordTransaction (sample : Sample) (key : GroupKey) (ns : Int)
    (locality : Locality) (other : GroupKey) (partition : PartitionId) :
    (sample.recordTransaction key ns locality).2.penaltySamples other partition =
      sample.penaltySamples other partition := by
  obtain ⟨newest, same⟩ := sample.groupForTransaction_spec key
  have added := penaltySamples_modifyGroup newest (·.recordTransaction ns locality) []
    (fun group => group.key_recordTransaction ns locality)
    (fun group => (group.penaltySamples_recordTransaction ns locality partition).trans
      (List.append_nil _).symm) other
  rw [recordTransaction, added, same, ite_self, List.append_nil]

theorem penaltySamples_recordPartition (sample : Sample) (key : GroupKey)
    (charge : PartitionId × Int) (isEstimate : Bool) (other : GroupKey) (partition : PartitionId) :
    (sample.recordPartition key charge.1 charge.2 isEstimate).2.penaltySamples other partition =
      sample.penaltySamples other partition ++
        if other = key then latenciesOf partition [charge] else [] := by
  obtain ⟨newest, same⟩ := sample.groupForPartition_spec key
  have added := penaltySamples_modifyGroup newest
    (·.recordPartition charge.1 charge.2 isEstimate) _ (fun _ => rfl)
    (fun group => group.penaltySamples_recordPartition charge isEstimate partition) other
  rw [recordPartition, added, same]

theorem penaltySamples_takeCharges (charges : List (PartitionId × Int)) (sample : Sample)
    (key other : GroupKey) (partition : PartitionId) :
    (charges.foldl (fun sample charge => (sample.recordPartition key charge.1 charge.2 false).2)
        sample).penaltySamples other partition =
      sample.penaltySamples other partition ++
        if other = key then latenciesOf partition charges else [] := by
  induction charges generalizing sample with
  | nil => exact ((congrArg (_ ++ ·) (ite_self _)).trans (List.append_nil _)).symm
  | cons charge charges ih =>
    rw [List.foldl_cons, ih, penaltySamples_recordPartition, List.append_assoc]
    refine congrArg (_ ++ ·) ?_
    split
    · exact (latenciesOf_append partition [charge] charges).symm
    · rfl

end Sample

/-- What a record charges to a partition is added under the record's key. -/
theorem penaltySamples_replayRecord (topology : Topology) (state : ReplayStats × Sample)
    (record : Record) (key : GroupKey) (partition : PartitionId) :
    (replayRecord topology state record).2.penaltySamples key partition =
      state.2.penaltySamples key partition ++
        if record.key? = some key then latenciesOf partition (record.charges topology) else [] := by
  unfold replayRecord
  cases known : record.key? with
  | none =>
    exact (List.append_nil _).symm
  | some own =>
    simp only
    rw [Sample.penaltySamples_takeCharges, Sample.penaltySamples_recordTransaction]
    simp only [Option.some.injEq, eq_comm]

/-- What records charge to a partition is added, record by record, under the keys they have. -/
theorem penaltySamples_replayRecords (records : List Record) (sample : Sample)
    (topology : Topology) (key : GroupKey) (partition : PartitionId) :
    (replayRecords records sample topology).2.penaltySamples key partition =
      sample.penaltySamples key partition ++
        (records.filter (·.key? = some key)).flatMap fun record =>
          latenciesOf partition (record.charges topology) := by
  have run (state : ReplayStats × Sample) :
      (records.foldl (replayRecord topology) state).2.penaltySamples key partition =
        state.2.penaltySamples key partition ++
          (records.filter (·.key? = some key)).flatMap fun record =>
            latenciesOf partition (record.charges topology) := by
    induction records generalizing state with
    | nil => exact (List.append_nil _).symm
    | cons record records ih =>
      rw [List.foldl_cons, ih, penaltySamples_replayRecord, List.append_assoc]
      refine congrArg (_ ++ ·) ?_
      by_cases here : record.key? = some key
      · rw [if_pos here, List.filter_cons_of_pos (by simp [here]), List.flatMap_cons]
      · rw [if_neg here, List.filter_cons_of_neg (by simp [here]), List.nil_append]
  exact run ({}, sample)

end Rebalance
