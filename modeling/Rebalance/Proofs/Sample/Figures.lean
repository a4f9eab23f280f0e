import Rebalance.Proofs.Sample.Median
import Rebalance.Telemetry.Replay

/-!
What becomes of the records of one group. Its figures are told by which latencies it has taken,
near, far and of each partition; the order in which they came is lost with the medians.
-/

namespace Rebalance

def LatencyBuffer.of (samples : List Nat) : LatencyBuffer := { samples := samples.toArray }

theorem LatencyBuffer.push_of (samples : List Nat) (ns : Nat) :
    (LatencyBuffer.of samples).push ns = .of (samples ++ [ns]) := by
  simp [push, of]

theorem LatencyBuffer.median_of (samples : List Nat) :
    (LatencyBuffer.of samples).median =
      (median? samples, { samples := samples.toArray, cached := median? samples }) := rfl

def latenciesAt (topology : Topology) (locality : Locality) (records : List Record) : List Nat :=
  (records.filter (·.locality topology = locality)).map (Latency.clamp ·.latency)

def latenciesOf (partition : PartitionId) (charges : List (PartitionId × Int)) : List Nat :=
  (charges.filter (·.1 = partition)).map (Latency.clamp ·.2)

/-- The samples of a partition, if it has any; all are measured. -/
def samplesOf : List Nat → Option PartitionSamples
  | [] => none
  | latencies => some { buffer := .of latencies, measured := true }

theorem latenciesOf_append (partition : PartitionId) (first second : List (PartitionId × Int)) :
    latenciesOf partition (first ++ second) =
      latenciesOf partition first ++ latenciesOf partition second := by
  rw [latenciesOf, List.filter_append, List.map_append]
  rfl

theorem latenciesOf_singleton (partition : PartitionId) (charge : PartitionId × Int) :
    latenciesOf partition [charge] =
      if charge.1 = partition then [Latency.clamp charge.2] else [] := by
  unfold latenciesOf
  by_cases here : charge.1 = partition
  · simp [here]
  · simp [here]

theorem latenciesAt_concat (topology : Topology) (locality : Locality) (records : List Record)
    (record : Record) :
    latenciesAt topology locality (records ++ [record]) = latenciesAt topology locality records ++
      if record.locality topology = locality then [Latency.clamp record.latency] else [] := by
  rw [latenciesAt, List.filter_append, List.map_append]
  by_cases here : record.locality topology = locality
  · simp [latenciesAt, here]
  · simp [latenciesAt, here]

namespace Group

def takeCharges (group : Group) (charges : List (PartitionId × Int)) : Group :=
  charges.foldl (fun group charge => group.recordPartition charge.1 charge.2 false) group

def takeRecord (topology : Topology) (group : Group) (record : Record) : Group :=
  (group.recordTransaction record.latency (record.locality topology)).takeCharges
    (record.charges topology)

/-- A group that has taken these records and nothing else. -/
structure Holds (topology : Topology) (records : List Record) (group : Group) : Prop where
  transactions : group.transactions = records.length
  near : group.near = .of (latenciesAt topology .near records)
  far : group.far = .of (latenciesAt topology .far records)
  partitions : ∀ partition, group.partitions.get? partition =
    samplesOf (latenciesOf partition (records.flatMap (·.charges topology)))

theorem holds_new (topology : Topology) (key : GroupKey) : Holds topology [] (new key) :=
  ⟨rfl, rfl, rfl, fun _ => rfl⟩

theorem get?_recordPartition (group : Group) (charge : PartitionId × Int) (partition : PartitionId)
    {charges : List (PartitionId × Int)}
    (told : group.partitions.get? partition = samplesOf (latenciesOf partition charges)) :
    (group.recordPartition charge.1 charge.2 false).partitions.get? partition =
      samplesOf (latenciesOf partition (charges ++ [charge])) := by
  unfold recordPartition
  rw [latenciesOf_append]
  simp only [IdMap.get?_upsert]
  by_cases here : charge.1 = partition
  · subst here
    rw [if_pos rfl, told, latenciesOf_singleton, if_pos rfl]
    cases latenciesOf charge.1 charges with
    | nil => rfl
    | cons first later =>
      have pushed := LatencyBuffer.push_of (first :: later) (Latency.clamp charge.2)
      simp only [samplesOf, Option.getD_some, pushed, Bool.true_or, List.cons_append]
  · rw [if_neg (Ne.symm here), latenciesOf_singleton, if_neg here, List.append_nil, told]

theorem takeCharges_eq (group : Group) (charges : List (PartitionId × Int)) :
    (group.takeCharges charges).key = group.key ∧
      (group.takeCharges charges).transactions = group.transactions ∧
        (group.takeCharges charges).near = group.near ∧
          (group.takeCharges charges).far = group.far := by
  induction charges generalizing group with
  | nil => exact ⟨rfl, rfl, rfl, rfl⟩
  | cons charge charges ih => exact ih (group.recordPartition charge.1 charge.2 false)

theorem get?_takeCharges (group : Group) (charges : List (PartitionId × Int))
    (partition : PartitionId) {earlier : List (PartitionId × Int)}
    (told : group.partitions.get? partition = samplesOf (latenciesOf partition earlier)) :
    (group.takeCharges charges).partitions.get? partition =
      samplesOf (latenciesOf partition (earlier ++ charges)) := by
  induction charges generalizing group earlier with
  | nil => rw [List.append_nil]; exact told
  | cons charge charges ih =>
    have later := ih _ (group.get?_recordPartition charge partition told)
    rwa [List.append_assoc, List.singleton_append] at later

theorem Holds.takeRecord {topology : Topology} {records : List Record} {group : Group}
    (holds : Holds topology records group) (record : Record) :
    Holds topology (records ++ [record]) (group.takeRecord topology record) := by
  obtain ⟨_, transactions, near, far⟩ := takeCharges_eq
    (group.recordTransaction record.latency (record.locality topology)) (record.charges topology)
  unfold Group.takeRecord
  constructor
  · rw [transactions, List.length_append, List.length_singleton, ← holds.transactions]
    cases record.locality topology <;> rfl
  · rw [near, latenciesAt_concat]
    cases record.locality topology with
    | near =>
      rw [if_pos rfl, ← LatencyBuffer.push_of, ← holds.near]
      rfl
    | far =>
      rw [if_neg (by decide), List.append_nil, ← holds.near]
      rfl
  · rw [far, latenciesAt_concat]
    cases record.locality topology with
    | near =>
      rw [if_neg (by decide), List.append_nil, ← holds.far]
      rfl
    | far =>
      rw [if_pos rfl, ← LatencyBuffer.push_of, ← holds.far]
      rfl
  · intro partition
    rw [List.flatMap_append, List.flatMap_singleton]
    apply get?_takeCharges
    rw [← holds.partitions]
    cases record.locality topology <;> rfl

theorem Holds.foldl_takeRecord {topology : Topology} {earlier : List Record} {group : Group}
    (holds : Holds topology earlier group) (records : List Record) :
    Holds topology (earlier ++ records) (records.foldl (Group.takeRecord topology) group) := by
  induction records generalizing earlier group with
  | nil => rw [List.append_nil]; exact holds
  | cons record records ih =>
    have later := ih (holds.takeRecord record)
    rwa [List.append_assoc, List.singleton_append] at later

end Group

/-- What is told of a group: its transactions, how many of them were near and far, and the
latencies derived from them. -/
structure Figures where
  transactions : Nat
  near : Nat
  far : Nat
  latency : Option GroupLatency
deriving DecidableEq, Inhabited

def Group.figures (group : Group) : Figures where
  transactions := group.transactions
  near := group.near.size
  far := group.far.size
  latency := group.latency

def PartitionSamples.penalty (samples : PartitionSamples) : Latency where
  ns := samples.buffer.median.1.getD 0
  isEstimate := !samples.measured

theorem Group.figures_reconcile (group : Group) :
    let near := group.near.median
    let far := group.far.median
    let derived := deriveLatencies near.1 far.1
    group.reconcile.figures =
      { transactions := group.transactions
        near := near.2.size
        far := far.2.size
        latency := some
          { near := derived.1
            far := derived.2
            observed := (median? (near.2.samples.toList ++ far.2.samples.toList)).getD derived.1.ns
            penalties := group.partitions.mapValues fun _ samples => samples.penalty } } := by
  intro near far derived
  have composed : ((group.partitions.mapValues fun _ samples =>
        (samples.buffer.median.1, { samples with buffer := samples.buffer.median.2 })).mapValues
          fun _ entry => ({ ns := entry.1.getD 0, isEstimate := !entry.2.measured } : Latency)) =
      group.partitions.mapValues fun _ samples => samples.penalty := by
    refine IdMap.ext fun partition => ?_
    simp only [IdMap.get?_mapValues, Option.map_map]
    rfl
  rw [← composed]
  rfl

theorem samplesOf_perm {first second : List Nat} (shuffled : first.Perm second) :
    (samplesOf first).map PartitionSamples.penalty =
      (samplesOf second).map PartitionSamples.penalty := by
  have same := median?_perm shuffled
  cases first with
  | nil => rw [List.nil_perm.1 shuffled]
  | cons x first =>
    cases second with
    | nil => cases List.perm_nil.1 shuffled
    | cons y second =>
      simp only [samplesOf, Option.map_some, PartitionSamples.penalty, LatencyBuffer.median_of,
        same]

/-- After reconciliation nothing is left of the order in which records came. -/
theorem Group.Holds.figures_eq {topology : Topology} {records others : List Record}
    {group other : Group} (holds : Holds topology records group)
    (holdsToo : Holds topology others other) (shuffled : records.Perm others) :
    group.reconcile.figures = other.reconcile.figures := by
  have sampled (locality : Locality) :
      (latenciesAt topology locality records).Perm (latenciesAt topology locality others) :=
    (shuffled.filter _).map _
  have penalties : (group.partitions.mapValues fun _ samples => samples.penalty) =
      other.partitions.mapValues fun _ samples => samples.penalty := by
    refine IdMap.ext fun partition => ?_
    rw [IdMap.get?_mapValues, IdMap.get?_mapValues, holds.partitions, holdsToo.partitions]
    exact samplesOf_perm (((shuffled.flatMap_right _).filter _).map _)
  have counted : group.transactions = other.transactions := by
    rw [holds.transactions, holdsToo.transactions, shuffled.length_eq]
  have pooled := median?_perm ((sampled .near).append (sampled .far))
  rw [figures_reconcile, figures_reconcile, penalties, counted, holds.near, holds.far,
    holdsToo.near, holdsToo.far]
  simp only [LatencyBuffer.median_of, LatencyBuffer.size, List.size_toArray,
    median?_perm (sampled .near), median?_perm (sampled .far), (sampled .near).length_eq,
    (sampled .far).length_eq, pooled]

end Rebalance
