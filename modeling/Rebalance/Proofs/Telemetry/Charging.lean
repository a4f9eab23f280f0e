import Rebalance.Proofs.Sample.Slots
import Rebalance.Proofs.Telemetry.Replay

/-!
Where replayed records end up. Each well-formed record is counted by one group, of its own key,
and what its messages measured is charged to the same group; nothing else is added to a sample.
-/

namespace Rebalance

def saturated (ns : Int) : Int :=
  if ns < -2 ^ 63 then -2 ^ 63 else if 2 ^ 63 ≤ ns then 2 ^ 63 - 1 else ns

theorem clockDifference_eq_saturated (later earlier : Int) :
    clockDifference later earlier = saturated (later - earlier) := by
  have range : Int.pow 2 63 = 2 ^ 63 := rfl
  unfold clockDifference saturated
  rw [range]
  split
  · omega
  · split <;> omega

namespace MessageTiming

variable {topology : Topology} {initiator : HostId} {partition : PartitionId}
  {message : MessageTiming}

/-- The message went to a known site of the partition, on another host than the initiator's. -/
def CrossesTo (topology : Topology) (initiator : HostId) (partition : PartitionId)
    (message : MessageTiming) : Prop :=
  ∃ site ∈ topology.site? message.receiver,
    site.host ≠ initiator ∧ site.partition = some partition

instance : Decidable (message.CrossesTo topology initiator partition) :=
  inferInstanceAs (Decidable (∃ site ∈ topology.site? message.receiver,
    site.host ≠ initiator ∧ site.partition = some partition))

def Crosses (topology : Topology) (initiator : HostId) (message : MessageTiming) : Prop :=
  ∃ site ∈ topology.site? message.receiver, site.host ≠ initiator ∧ site.partition.isSome = true

instance : Decidable (message.Crosses topology initiator) :=
  inferInstanceAs (Decidable (∃ site ∈ topology.site? message.receiver,
    site.host ≠ initiator ∧ site.partition.isSome = true))

def measured (message : MessageTiming) : Nat :=
  (max 1 (saturated (message.received - message.sent))).toNat

theorem charge?_eq_some_iff {charge : PartitionId × Int} :
    message.charge? initiator topology = some charge ↔
      message.CrossesTo topology initiator charge.1 ∧
        saturated (message.received - message.sent) = charge.2 := by
  obtain ⟨own, ns⟩ := charge
  unfold charge? CrossesTo
  rw [clockDifference_eq_saturated]
  cases topology.site? message.receiver with
  | none => simp
  | some site =>
    by_cases home : site.host = initiator
    · simp [home]
    · simp [home]

theorem isSome_charge? :
    (message.charge? initiator topology).isSome = true ↔ message.Crosses topology initiator := by
  unfold charge? Crosses
  cases topology.site? message.receiver with
  | none => simp
  | some site =>
    by_cases home : site.host = initiator
    · simp [home]
    · simp [home]

end MessageTiming

namespace Record

variable {topology : Topology}

def IsNear (topology : Topology) (record : Record) : Prop :=
  topology.hostOfSite record.coordinatorSite = some record.initiatorHost

instance (record : Record) : Decidable (record.IsNear topology) :=
  inferInstanceAs (Decidable (topology.hostOfSite record.coordinatorSite = some _))

theorem locality_eq_far {record : Record} :
    record.locality topology = .far ↔ ¬ record.IsNear topology := by
  unfold IsNear
  rw [← locality_eq_near]
  cases record.locality topology with
  | near | far => simp

def measurements (topology : Topology) (record : Record) (partition : PartitionId) : List Nat :=
  (record.messages.filter (·.CrossesTo topology record.initiatorHost partition)).map
    MessageTiming.measured

theorem latenciesOf_charges (record : Record) (partition : PartitionId) :
    latenciesOf partition (record.charges topology) = record.measurements topology partition := by
  unfold latenciesOf charges measurements
  induction record.messages with
  | nil => rfl
  | cons message messages ih =>
    by_cases reached : message.CrossesTo topology record.initiatorHost partition
    · have charged : message.charge? record.initiatorHost topology =
          some (partition, saturated (message.received - message.sent)) :=
        MessageTiming.charge?_eq_some_iff.2 ⟨reached, rfl⟩
      have clamped : Latency.clamp (saturated (message.received - message.sent)) =
          message.measured := congrArg Int.toNat (max_comm _ _)
      simp only [List.filterMap_cons, charged]
      rw [List.filter_cons_of_pos (by simp), List.map_cons, ih,
        List.filter_cons_of_pos (by simpa using reached), List.map_cons, clamped]
    · rw [List.filter_cons_of_neg (by simpa using reached), ← ih]
      cases charged : message.charge? record.initiatorHost topology with
      | none => simp only [List.filterMap_cons, charged]
      | some charge =>
        have elsewhere : charge.1 ≠ partition := fun here =>
          reached (here ▸ (MessageTiming.charge?_eq_some_iff.1 charged).1)
        simp only [List.filterMap_cons, charged]
        rw [List.filter_cons_of_neg (by simpa using elsewhere)]

theorem mem_charges {record : Record} {charge : PartitionId × Int} :
    charge ∈ record.charges topology ↔ ∃ message ∈ record.messages,
      message.CrossesTo topology record.initiatorHost charge.1 ∧
        saturated (message.received - message.sent) = charge.2 := by
  rw [charges, List.mem_filterMap]
  simp only [MessageTiming.charge?_eq_some_iff]

theorem length_charges (record : Record) : (record.charges topology).length =
    record.messages.countP (·.Crosses topology record.initiatorHost) := by
  rw [charges, List.length_filterMap_eq_countP]
  refine List.countP_congr fun message _ => ?_
  rw [MessageTiming.isSome_charge?, decide_eq_true_iff]

end Record

namespace Group

variable {topology : Topology} {records : List Record} {group earlier : Group}

def isMeasured (group : Group) (partition : PartitionId) : Bool :=
  (group.partitions.get? partition).any (·.measured)

theorem penaltySamples_takeCharges (group : Group) (charges : List (PartitionId × Int))
    (partition : PartitionId) : (group.takeCharges charges).penaltySamples partition =
      group.penaltySamples partition ++ latenciesOf partition charges := by
  induction charges generalizing group with
  | nil => exact (List.append_nil _).symm
  | cons charge charges ih =>
    have later := ih (group.recordPartition charge.1 charge.2 false)
    rwa [penaltySamples_recordPartition, List.append_assoc, ← latenciesOf_append] at later

theorem isMeasured_recordPartition (group : Group) (charge : PartitionId × Int)
    (partition : PartitionId) :
    (group.recordPartition charge.1 charge.2 false).isMeasured partition = true ↔
      group.isMeasured partition = true ∨ charge.1 = partition := by
  unfold isMeasured recordPartition
  simp only [IdMap.get?_upsert]
  by_cases here : charge.1 = partition
  · simp [here]
  · simp [here, Ne.symm here]

theorem isMeasured_takeCharges (group : Group) (charges : List (PartitionId × Int))
    (partition : PartitionId) : (group.takeCharges charges).isMeasured partition = true ↔
      group.isMeasured partition = true ∨ ∃ charge ∈ charges, charge.1 = partition := by
  induction charges generalizing group with
  | nil => simp [takeCharges]
  | cons charge charges ih =>
    have later := ih (group.recordPartition charge.1 charge.2 false)
    rw [isMeasured_recordPartition, or_assoc] at later
    rw [List.exists_mem_cons_iff]
    exact later

/-- The group with these records in it beyond what it had. -/
structure Adds (topology : Topology) (records : List Record) (group earlier : Group) : Prop where
  key : group.key = earlier.key
  transactions : group.transactions = earlier.transactions + records.length
  near : group.near.samples.toList = earlier.near.samples.toList ++
    (records.filter (·.IsNear topology)).map (Latency.clamp ·.latency)
  far : group.far.samples.toList = earlier.far.samples.toList ++
    (records.filter (¬ ·.IsNear topology)).map (Latency.clamp ·.latency)
  penalties : ∀ partition, group.penaltySamples partition = earlier.penaltySamples partition ++
    records.flatMap (·.measurements topology partition)
  measured : ∀ partition, group.isMeasured partition = true ↔
    earlier.isMeasured partition = true ∨ ∃ record ∈ records, ∃ message ∈ record.messages,
      message.CrossesTo topology record.initiatorHost partition

theorem Adds.refl (topology : Topology) (group : Group) : group.Adds topology [] group where
  key := rfl
  transactions := rfl
  near := (List.append_nil _).symm
  far := (List.append_nil _).symm
  penalties _ := (List.append_nil _).symm
  measured _ := by simp

theorem samples_recordTransaction (topology : Topology) (group : Group) (record : Record) :
    let recorded := group.recordTransaction record.latency (record.locality topology)
    recorded.near.samples.toList = group.near.samples.toList ++
        ([record].filter (·.IsNear topology)).map (Latency.clamp ·.latency) ∧
      recorded.far.samples.toList = group.far.samples.toList ++
        ([record].filter (¬ ·.IsNear topology)).map (Latency.clamp ·.latency) := by
  intro recorded
  unfold recorded
  by_cases near : record.IsNear topology
  · rw [Record.locality_eq_near.2 near]
    exact ⟨by simp [near, recordTransaction, LatencyBuffer.push], by simp [near, recordTransaction]⟩
  · rw [Record.locality_eq_far.2 near]
    exact ⟨by simp [near, recordTransaction], by simp [near, recordTransaction, LatencyBuffer.push]⟩

/-- What is recorded of a transaction leaves what is known of partitions. -/
theorem partitions_recordTransaction (group : Group) (ns : Int) (locality : Locality) :
    (group.recordTransaction ns locality).partitions = group.partitions ∧
      (group.recordTransaction ns locality).transactions = group.transactions + 1 := by
  cases locality with
  | near => exact ⟨rfl, rfl⟩
  | far => exact ⟨rfl, rfl⟩

theorem Adds.takeRecord (adds : group.Adds topology records earlier) (record : Record) :
    (group.takeRecord topology record).Adds topology (records ++ [record]) earlier := by
  obtain ⟨key, transactions, near, far⟩ := takeCharges_eq
    (group.recordTransaction record.latency (record.locality topology)) (record.charges topology)
  obtain ⟨nearer, farther⟩ := group.samples_recordTransaction topology record
  obtain ⟨same, counted⟩ :=
    group.partitions_recordTransaction record.latency (record.locality topology)
  unfold Group.takeRecord
  constructor
  · rw [key, key_recordTransaction, adds.key]
  · rw [transactions, counted, adds.transactions, List.length_append, List.length_singleton,
      Nat.add_assoc]
  · rw [near, nearer, adds.near, List.filter_append, List.map_append, List.append_assoc]
  · rw [far, farther, adds.far, List.filter_append, List.map_append, List.append_assoc]
  · intro partition
    rw [penaltySamples_takeCharges, penaltySamples_recordTransaction, adds.penalties,
      Record.latenciesOf_charges, List.flatMap_append, List.flatMap_singleton, List.append_assoc]
  · intro partition
    have held : (group.recordTransaction record.latency
        (record.locality topology)).isMeasured partition = group.isMeasured partition := by
      rw [isMeasured, same, isMeasured]
    have charged : (∃ charge ∈ record.charges topology, charge.1 = partition) ↔
        ∃ message ∈ record.messages,
          message.CrossesTo topology record.initiatorHost partition := by
      constructor
      · rintro ⟨charge, listed, rfl⟩
        obtain ⟨message, sent, crosses, _⟩ := Record.mem_charges.1 listed
        exact ⟨message, sent, crosses⟩
      · rintro ⟨message, sent, crosses⟩
        exact ⟨(partition, _), Record.mem_charges.2 ⟨message, sent, crosses, rfl⟩, rfl⟩
    rw [isMeasured_takeCharges, held, adds.measured, charged, or_assoc]
    simp only [List.mem_append, List.mem_singleton, or_and_right, exists_or, exists_eq_left]

theorem key_takeRecord (topology : Topology) (group : Group) (record : Record) :
    (group.takeRecord topology record).key = group.key :=
  ((Adds.refl topology group).takeRecord record).key

end Group

/-- The records that went to one group, in their order. -/
def recordsAt (id : GroupId) (entries : List (GroupId × Record)) : List Record :=
  (entries.filter (·.1 = id)).map (·.2)

theorem recordsAt_concat (id : GroupId) (entries : List (GroupId × Record))
    (entry : GroupId × Record) :
    recordsAt id (entries ++ [entry]) =
      recordsAt id entries ++ if entry.1 = id then [entry.2] else [] := by
  unfold recordsAt
  by_cases here : entry.1 = id
  · simp [here]
  · simp [here]

namespace Sample

variable {topology : Topology} {entries : List (GroupId × Record)} {sample later : Sample}

/-- The sample with these records in it beyond what it had, each in the group that it is counted
by. -/
structure Grows (topology : Topology) (entries : List (GroupId × Record))
    (sample later : Sample) : Prop where
  total : later.totalTransactions = sample.totalTransactions + entries.length
  groups : ∀ id, (later.group? id).isSome = true ↔
    (sample.group? id).isSome = true ∨ ∃ record, (id, record) ∈ entries
  own : ∀ entry ∈ entries, ∃ group ∈ later.group? entry.1, entry.2.key? = some group.key
  added : ∀ id, ∀ group ∈ later.group? id, group.Adds topology (recordsAt id entries)
    ((sample.group? id).getD (.new group.key))

theorem grows_nil (topology : Topology) (sample : Sample) : Grows topology [] sample sample where
  total := rfl
  groups id := by simp
  own _ member := absurd member List.not_mem_nil
  added id group found := by
    rw [Option.mem_def.1 found, Option.getD_some]
    exact Group.Adds.refl topology group

theorem Grows.inSlot (grows : Grows topology entries sample later) (key : GroupKey) :
    (later.inSlot key).Adds topology (recordsAt (later.slotOf key) entries)
      ((sample.group? (later.slotOf key)).getD (.new key)) := by
  cases found : later.group? (later.slotOf key) with
  | some group =>
    have same := inSlot_eq found
    have added := grows.added _ group found
    have keyed : group.key = key := same ▸ later.key_inSlot key
    rw [keyed] at added
    rw [same]
    exact added
  | none =>
    have missing : ¬ ((sample.group? (later.slotOf key)).isSome = true ∨
        ∃ record, (later.slotOf key, record) ∈ entries) := by
      rw [← grows.groups, found]
      exact Bool.false_ne_true
    obtain ⟨unknown, uncounted⟩ := not_or.1 missing
    have empty : recordsAt (later.slotOf key) entries = [] := by
      rw [recordsAt, List.map_eq_nil_iff, List.filter_eq_nil_iff]
      intro entry member here
      exact uncounted ⟨entry.2, (of_decide_eq_true here) ▸ member⟩
    rw [empty, Sample.inSlot, found, Option.not_isSome_iff_eq_none.1 unknown]
    exact Group.Adds.refl topology (.new key)

/-- One more record is counted by the group that takes its transaction. -/
theorem Grows.replay (grows : Grows topology entries sample later) {record : Record}
    {key : GroupKey} (known : record.key? = some key) :
    Grows topology (entries ++ [(later.slotOf key, record)]) sample
      (later.replay topology record) := by
  have changed := later.group?_replay topology known
  constructor
  · rw [totalTransactions_replay later known, grows.total, List.length_append,
      List.length_singleton, Nat.add_assoc]
  · intro id
    rw [changed]
    by_cases here : id = later.slotOf key
    · simp [here]
    · simp [here, grows.groups]
  · intro entry member
    rw [changed]
    have keyed : ((later.inSlot key).takeRecord topology record).key = key :=
      (Group.key_takeRecord ..).trans (later.key_inSlot key)
    rcases List.mem_append.1 member with earlier | last
    · obtain ⟨group, found, same⟩ := grows.own entry earlier
      by_cases here : entry.1 = later.slotOf key
      · have held : later.inSlot key = group := inSlot_eq (here ▸ found)
        rw [if_pos here]
        refine ⟨_, rfl, ?_⟩
        rw [keyed, same, ← held, later.key_inSlot key]
      · rw [if_neg here]
        exact ⟨group, found, same⟩
    · rw [List.mem_singleton.1 last, if_pos rfl]
      refine ⟨_, rfl, ?_⟩
      rw [keyed, known]
  · intro id group found
    rw [changed] at found
    rw [recordsAt_concat]
    by_cases here : id = later.slotOf key
    · rw [if_pos here] at found
      cases found
      have taken := (grows.inSlot key).takeRecord record
      rw [here, if_pos rfl, Group.key_takeRecord, later.key_inSlot key]
      exact taken
    · rw [if_neg here] at found
      rw [if_neg (Ne.symm here), List.append_nil]
      exact grows.added id group found

def counted (topology : Topology) : Sample → List Record → List (GroupId × Record)
  | _, [] => []
  | sample, record :: records =>
    match record.key? with
    | none => sample.counted topology records
    | some key =>
      let id := (sample.recordTransaction key record.latency (record.locality topology)).1
      (id, record) :: (sample.replay topology record).counted topology records

theorem map_counted (records : List Record) (sample : Sample) :
    (sample.counted topology records).map (·.2) = records.filter (!·.isMalformed) := by
  induction records generalizing sample with
  | nil => rfl
  | cons record records ih =>
    unfold counted
    cases known : record.key? with
    | none =>
      have malformed := Record.key?_eq_none_iff.1 known
      rw [List.filter_cons_of_neg (by simp [malformed])]
      exact ih sample
    | some key =>
      have formed := Record.isMalformed_of_key? known
      rw [List.filter_cons_of_pos (by simp [formed]), List.map_cons, ih]

/-- A run of records grows a sample by the records that it counts. -/
theorem Grows.foldl_replay {before : List (GroupId × Record)}
    (grows : Grows topology before sample later) (records : List Record) :
    Grows topology (before ++ later.counted topology records) sample
      (records.foldl (Sample.replay topology) later) := by
  induction records generalizing before later with
  | nil =>
    rw [counted, List.append_nil]
    exact grows
  | cons record records ih =>
    rw [List.foldl_cons]
    unfold counted
    cases known : record.key? with
    | none =>
      rw [replay_of_malformed later known]
      exact ih grows
    | some key =>
      have next := ih (grows.replay known)
      rwa [List.append_assoc, List.singleton_append] at next

end Sample

theorem length_add_countP_isMalformed (records : List Record) :
    (records.filter (!·.isMalformed)).length + records.countP (·.isMalformed) =
      records.length := by
  rw [← List.countP_eq_length_filter, Nat.add_comm,
    List.length_eq_countP_add_countP (·.isMalformed)]
  simp only [Bool.not_eq_true, Bool.decide_eq_false]

theorem stats_replayRecords (topology : Topology) (records : List Record) (sample : Sample) :
    let valid := records.filter (!·.isMalformed)
    (replayRecords records sample topology).1 =
      { near := valid.countP (·.IsNear topology)
        far := valid.countP (¬ ·.IsNear topology)
        malformed := records.countP (·.isMalformed)
        partitionLatencies := (valid.map fun record =>
          record.messages.countP (·.Crosses topology record.initiatorHost)).sum } := by
  intro valid
  have run : (replayRecords records sample topology).1 =
      records.foldl (ReplayStats.take topology) {} :=
    stats_foldl_replayRecord topology records ({}, sample)
  rw [run, ReplayStats.foldl_take_eq]
  simp only [Nat.zero_add, Record.locality_eq_near, Record.locality_eq_far, Record.length_charges]
  rfl

theorem foldl_replay_valid (topology : Topology) (records : List Record) (sample : Sample) :
    (records.filter (!·.isMalformed)).foldl (Sample.replay topology) sample =
      records.foldl (Sample.replay topology) sample := by
  rw [List.foldl_filter]
  refine congrArg (List.foldl · sample records) ?_
  funext sample record
  split
  · rfl
  · next malformed =>
    have unknown : record.key? = none := Record.key?_eq_none_iff.2 (by simpa using malformed)
    exact (Sample.replay_of_malformed sample unknown).symm

/-- Replaying records counts each of them once, and adds nothing to the sample but the latency of
each well-formed one, which goes to a group of its key, and what its messages to other hosts
measured, which goes to the same group. -/
theorem replayRecords_accounts (topology : Topology) (records : List Record) (sample : Sample) :
    let stats := (replayRecords records sample topology).1
    let later := (replayRecords records sample topology).2
    let valid := records.filter (!·.isMalformed)
    let counted := sample.counted topology records
    stats.near + stats.far + stats.malformed = records.length ∧
      stats = { near := valid.countP (·.IsNear topology)
                far := valid.countP (¬ ·.IsNear topology)
                malformed := records.countP (·.isMalformed)
                partitionLatencies := (valid.map fun record =>
                  record.messages.countP (·.Crosses topology record.initiatorHost)).sum } ∧
        later = (replayRecords valid sample topology).2 ∧
          later.totalTransactions = sample.totalTransactions + (stats.near + stats.far) ∧
            counted.map (·.2) = valid ∧ Sample.Grows topology counted sample later := by
  intro stats later valid counted
  have told : stats = _ := stats_replayRecords topology records sample
  have run (records : List Record) : (replayRecords records sample topology).2 =
      records.foldl (Sample.replay topology) sample :=
    Sample.foldl_replayRecord records ({}, sample)
  have grows : Sample.Grows topology counted sample later := by
    unfold later
    rw [run]
    exact (Sample.grows_nil topology sample).foldl_replay records
  have listed : counted.map (·.2) = valid := Sample.map_counted records sample
  have halves : stats.near + stats.far = valid.length := by
    rw [told, List.length_eq_countP_add_countP (·.IsNear topology)]
    simp only [decide_eq_true_eq, valid]
  refine ⟨?_, told, ?_, ?_, listed, grows⟩
  · calc stats.near + stats.far + stats.malformed
      _ = valid.length + records.countP (·.isMalformed) := by rw [halves, told]
      _ = records.length := length_add_countP_isMalformed records
  · calc later
      _ = records.foldl (Sample.replay topology) sample := run records
      _ = valid.foldl (Sample.replay topology) sample :=
        (foldl_replay_valid topology records sample).symm
      _ = (replayRecords valid sample topology).2 := (run valid).symm
  · rw [grows.total, halves, ← listed, List.length_map]

/-- The second record opens a group, and what its message measured goes there. -/
example :
    let topology : Topology :=
      .new [100, 200] [⟨1, 100, some 101, true⟩, ⟨2, 200, some 102, true⟩]
    let record : Record :=
      { txnId := 1, procedure := "pay", isSingle := true, partition := some 101
        initiatorHost := 100, initiatorSite := 1, coordinatorSite := 2, latency := 900
        messages := [] }
    let later : Record := { record with messages := [⟨1, 2, -2 ^ 63, 2 ^ 63 - 1⟩] }
    let sample := (replayRecords [record, later] (.new 1) topology).2
    (Sample.new 1).counted topology [record, later] = [(0, record), (1, later)] ∧
      (sample.group? 0).map (·.penaltySamples 102) = some [] ∧
        (sample.group? 1).map (·.penaltySamples 102) = some [2 ^ 63 - 1] := by
  decide +kernel

end Rebalance
