import Rebalance.Proofs.Sample.Subgroups

/-!
Which group a record goes to. The group that takes its transaction is the newest of its key from
then on, so what its messages measured goes to the same group, and all other groups stay as they
were.
-/

namespace Rebalance

namespace Sample

variable {sample : Sample} {key : GroupKey} {id : GroupId}

theorem group?_modifyGroup (sample : Sample) (id : GroupId) (f : Group → Group)
    (keeps : ∀ group, (f group).key = group.key) (other : GroupId) :
    (sample.modifyGroup id f keeps).group? other =
      if other = id then (sample.group? id).map f else sample.group? other := by
  unfold group? modifyGroup
  rw [Array.getElem?_modify]
  by_cases here : other = id
  · rw [if_pos here, if_pos here.symm, here]
  · rw [if_neg here, if_neg (Ne.symm here)]

theorem group?_openGroup (sample : Sample) (key : GroupKey) (other : GroupId) :
    (sample.openGroup key).2.group? other =
      if other = sample.size then some (Group.new key) else sample.group? other :=
  Array.getElem?_push

theorem newestId?_openGroup (sample : Sample) (key : GroupKey) :
    (sample.openGroup key).2.newestId? key = some sample.size := by
  rw [newestId?_eq, subgroups_openGroup, if_pos rfl, List.getLast?_concat]

theorem group?_size (sample : Sample) : sample.group? sample.size = none :=
  Array.getElem?_eq_none (Nat.le_refl _)

theorem exists_of_newestId? (found : sample.newestId? key = some id) :
    ∃ group, sample.group? id = some group ∧ group.key = key :=
  mem_subgroups.1 (newestId?_eq_some_iff.1 found).1

/-- A group of a key, one that there was or a new one, that is the newest of the key from now on,
with the sample that has it. -/
structure IsSlot (sample : Sample) (key : GroupKey) (slot : GroupId × Sample) : Prop where
  newest : slot.2.newestId? key = some slot.1
  own : slot.2.group? slot.1 = some ((sample.group? slot.1).getD (.new key))
  others : ∀ other ≠ slot.1, slot.2.group? other = sample.group? other

theorem isSlot_openGroup (sample : Sample) (key : GroupKey) :
    sample.IsSlot key (sample.openGroup key) where
  newest := newestId?_openGroup sample key
  own := by
    change (sample.openGroup key).2.group? sample.size =
      some ((sample.group? sample.size).getD (.new key))
    rw [group?_openGroup, if_pos rfl, group?_size, Option.getD_none]
  others other differs := by
    have apart : other ≠ sample.size := differs
    rw [group?_openGroup, if_neg apart]

theorem isSlot_newest (found : sample.newestId? key = some id) :
    sample.IsSlot key (id, sample) where
  newest := found
  own := by
    obtain ⟨group, here, _⟩ := exists_of_newestId? found
    rw [here, Option.getD_some]
  others _ _ := rfl

theorem isSlot_groupForTransaction (sample : Sample) (key : GroupKey) :
    sample.IsSlot key (sample.groupForTransaction key) := by
  unfold groupForTransaction
  split
  · next id found =>
    split
    · exact isSlot_newest found
    · exact isSlot_openGroup sample key
  · exact isSlot_openGroup sample key

def slotOf (sample : Sample) (key : GroupKey) : GroupId := (sample.groupForTransaction key).1

def inSlot (sample : Sample) (key : GroupKey) : Group :=
  (sample.group? (sample.slotOf key)).getD (.new key)

theorem key_inSlot (sample : Sample) (key : GroupKey) : (sample.inSlot key).key = key := by
  have slot := sample.isSlot_groupForTransaction key
  obtain ⟨group, here, same⟩ := exists_of_newestId? slot.newest
  rw [slot.own] at here
  cases here
  exact same

theorem inSlot_eq {group : Group} (found : sample.group? (sample.slotOf key) = some group) :
    sample.inSlot key = group := by
  rw [inSlot, found, Option.getD_some]

theorem newestId?_recordTransaction (sample : Sample) (key : GroupKey) (ns : Int)
    (locality : Locality) :
    (sample.recordTransaction key ns locality).2.newestId? key = some (sample.slotOf key) :=
  (sample.isSlot_groupForTransaction key).newest

theorem group?_recordTransaction (sample : Sample) (key : GroupKey) (ns : Int)
    (locality : Locality) (other : GroupId) :
    (sample.recordTransaction key ns locality).2.group? other =
      if other = sample.slotOf key then some ((sample.inSlot key).recordTransaction ns locality)
      else sample.group? other := by
  have slot := sample.isSlot_groupForTransaction key
  have taken : (sample.groupForTransaction key).2.group? (sample.slotOf key) =
      some (sample.inSlot key) := slot.own
  have keeps (group : Group) := group.key_recordTransaction ns locality
  have step : (sample.recordTransaction key ns locality).2 =
      (sample.groupForTransaction key).2.modifyGroup (sample.slotOf key)
        (·.recordTransaction ns locality) keeps := rfl
  rw [step, group?_modifyGroup, taken, Option.map_some]
  by_cases here : other = sample.slotOf key
  · rw [if_pos here, if_pos here]
  · rw [if_neg here, if_neg here]
    exact slot.others other here

theorem group?_recordPartition (found : sample.newestId? key = some id) (partition : PartitionId)
    (ns : Int) (isEstimate : Bool) :
    (sample.recordPartition key partition ns isEstimate).2.newestId? key = some id ∧
      ∀ other, (sample.recordPartition key partition ns isEstimate).2.group? other =
        if other = id then (sample.group? id).map (·.recordPartition partition ns isEstimate)
        else sample.group? other := by
  unfold recordPartition groupForPartition
  rw [found]
  have changed := sample.group?_modifyGroup id (·.recordPartition partition ns isEstimate)
    fun _ => rfl
  exact ⟨found, changed⟩

theorem group?_takeCharges (charges : List (PartitionId × Int))
    (found : sample.newestId? key = some id) (other : GroupId) :
    (charges.foldl (fun sample charge => (sample.recordPartition key charge.1 charge.2 false).2)
        sample).group? other =
      if other = id then (sample.group? id).map (·.takeCharges charges)
      else sample.group? other := by
  induction charges generalizing sample with
  | nil =>
    by_cases here : other = id
    · rw [if_pos here, here]
      exact Option.map_id'.symm
    · rw [if_neg here]
      rfl
  | cons charge charges ih =>
    obtain ⟨newest, changed⟩ := group?_recordPartition found charge.1 charge.2 false
    rw [List.foldl_cons, ih newest, changed, changed, if_pos rfl, Option.map_map]
    by_cases here : other = id
    · rw [if_pos here, if_pos here]
      rfl
    · rw [if_neg here, if_neg here, if_neg here]

theorem totalTransactions_takeCharges (charges : List (PartitionId × Int)) (sample : Sample)
    (key : GroupKey) :
    (charges.foldl (fun sample charge => (sample.recordPartition key charge.1 charge.2 false).2)
      sample).totalTransactions = sample.totalTransactions := by
  induction charges generalizing sample with
  | nil => rfl
  | cons charge charges ih =>
    rw [List.foldl_cons, ih]
    exact (sample.changes_recordPartition key charge.1 charge.2 false).total 0 fun _ => rfl

def replay (topology : Topology) (sample : Sample) (record : Record) : Sample :=
  (replayRecord topology ({}, sample) record).2

variable {topology : Topology} {record : Record}

theorem replay_of_malformed (sample : Sample) (malformed : record.key? = none) :
    sample.replay topology record = sample := by
  unfold replay replayRecord
  rw [malformed]

/-- A record changes the group that takes its transaction, and no other. -/
theorem group?_replay (topology : Topology) (sample : Sample) (known : record.key? = some key)
    (other : GroupId) :
    (sample.replay topology record).group? other =
      if other = sample.slotOf key then some ((sample.inSlot key).takeRecord topology record)
      else sample.group? other := by
  unfold replay replayRecord
  rw [known]
  simp only
  rw [group?_takeCharges _ (sample.newestId?_recordTransaction key _ _),
    group?_recordTransaction, group?_recordTransaction, if_pos rfl, Option.map_some]
  by_cases here : other = sample.slotOf key
  · rw [if_pos here, if_pos here]
    rfl
  · rw [if_neg here, if_neg here, if_neg here]

theorem totalTransactions_replay (sample : Sample) (known : record.key? = some key) :
    (sample.replay topology record).totalTransactions = sample.totalTransactions + 1 := by
  have added (group : Group) : (group.recordTransaction record.latency
      (record.locality topology)).transactions = group.transactions + 1 := by
    cases record.locality topology <;> rfl
  unfold replay replayRecord
  rw [known]
  simp only
  rw [totalTransactions_takeCharges]
  exact (sample.changes_recordTransaction key _ _).total 1 added

theorem foldl_replayRecord (records : List Record) (state : ReplayStats × Sample) :
    (records.foldl (replayRecord topology) state).2 =
      records.foldl (replay topology) state.2 := by
  induction records generalizing state with
  | nil => rfl
  | cons record records ih =>
    have step : (replayRecord topology state record).2 = state.2.replay topology record := by
      unfold replay replayRecord
      cases record.key? <;> rfl
    rw [List.foldl_cons, List.foldl_cons, ih, step]

end Sample

end Rebalance
