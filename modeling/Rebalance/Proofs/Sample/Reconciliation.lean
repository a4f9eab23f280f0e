import Mathlib.Algebra.Ring.Int.Defs
import Mathlib.Algebra.Ring.Nat
import Rebalance.Proofs.Sample.Figures

/-!
The latencies that a group is given by reconciliation. They are told by the samples that were
recorded before it, whatever was reconciled in between: both are positive, the far one is not
below the near one, and what was not measured follows from what was.
-/

namespace Rebalance

theorem Latency.one_le_clamp (ns : Int) : 1 ≤ clamp ns := by
  unfold clamp
  omega

theorem Latency.clamp_lt {ns : Int} (below : ns < 2 ^ 63) : clamp ns < 2 ^ 63 := by
  unfold clamp
  omega

def AreClamped (samples : List Nat) : Prop := ∀ ns ∈ samples, 1 ≤ ns ∧ ns < 2 ^ 63

theorem AreClamped.median {samples : List Nat} (clamped : AreClamped samples) {m : Nat}
    (known : median? samples = some m) : 1 ≤ m ∧ m < 2 ^ 63 := by
  obtain ⟨low, lowHere, high, highHere, above, below⟩ := median?_between known
  have := clamped low lowHere
  have := clamped high highHere
  omega

/-- What near and far samples lead to. Neither doubling nor rounding up leaves the words. -/
structure Derives (samples farSamples : List Nat) (near far : Latency) : Prop where
  positive : 1 ≤ near.ns
  ordered : near.ns ≤ far.ns
  fits : 2 * near.ns ≤ wordMax ∧ far.ns + 1 ≤ wordMax
  nearMeasured : near.isEstimate = false ↔ samples ≠ []
  nearMedian : samples ≠ [] → median? samples = some near.ns
  farMeasured : far.isEstimate = false ↔ ∃ m, median? farSamples = some m ∧ near.ns ≤ m
  farMedian : far.isEstimate = false → median? farSamples = some far.ns
  doubled : far.isEstimate = true → far.ns = 2 * near.ns
  halved : samples = [] → near.ns = max 1 ((far.ns + 1) / 2)
  bare : samples = [] → farSamples = [] → near.ns = 1 ∧ far.ns = 2

theorem derives_deriveLatencies {near far : List Nat} (nearClamped : AreClamped near)
    (farClamped : AreClamped far) :
    Derives near far (deriveLatencies (median? near) (median? far)).1
      (deriveLatencies (median? near) (median? far)).2 := by
  have bound : wordMax = 2 ^ 64 - 1 := rfl
  have unknown {samples : List Nat} {m : Nat} (known : median? samples = some m) : samples ≠ [] :=
    fun empty => by simp [median?_eq_none_iff.2 empty] at known
  cases nearKnown : median? near with
  | none =>
    have bare : near = [] := median?_eq_none_iff.1 nearKnown
    cases farKnown : median? far with
    | none =>
      have empty : far = [] := median?_eq_none_iff.1 farKnown
      constructor <;> simp [deriveLatencies, Latency.inferred, bare, farKnown]
      omega
    | some m =>
      have range := farClamped.median farKnown
      constructor <;>
        simp [deriveLatencies, Latency.inferred, Latency.measured, bare, unknown farKnown,
          farKnown] <;> omega
  | some n =>
    have range := nearClamped.median nearKnown
    have whole : doubled n = 2 * n := Nat.min_eq_left (by omega)
    cases farKnown : median? far with
    | none =>
      constructor <;>
        simp [deriveLatencies, Latency.inferred, Latency.measured, unknown nearKnown, nearKnown,
          farKnown, whole] <;> omega
    | some m =>
      have farRange := farClamped.median farKnown
      unfold deriveLatencies
      simp only
      split
      · next below =>
        constructor <;>
          simp [Latency.inferred, Latency.measured, unknown nearKnown, nearKnown, farKnown,
            whole] <;> omega
      · next notBelow =>
        constructor <;>
          simp [Latency.measured, unknown nearKnown, nearKnown, farKnown] <;> omega

theorem LatencyBuffer.median_median (buffer : LatencyBuffer) :
    buffer.median.2.median = buffer.median := by
  obtain ⟨samples, cached⟩ := buffer
  cases cached with
  | none =>
    unfold median
    cases median? samples.toList with
    | none | some => rfl
  | some m => rfl

namespace Group

inductive Call
  | transaction (ns : Int) (locality : Locality)
  | partition (partition : PartitionId) (ns : Int) (isEstimate : Bool)
  | reconcile
deriving DecidableEq

namespace Call

/-- A latency of the range of a 64-bit clock from above; there is none in a reconciliation. -/
def IsInRange : Call → Prop
  | .transaction ns _ => ns < 2 ^ 63
  | .partition _ ns _ => ns < 2 ^ 63
  | .reconcile => True

def sampleAt? (locality : Locality) : Call → Option Nat
  | .transaction ns own => if own = locality then some (Latency.clamp ns) else none
  | _ => none

def sampleOf? (partition : PartitionId) : Call → Option Nat
  | .partition own ns _ => if own = partition then some (Latency.clamp ns) else none
  | _ => none

def measures (partition : PartitionId) : Call → Bool
  | .partition own _ isEstimate => decide (own = partition) && !isEstimate
  | _ => false

end Call

def take (group : Group) : Call → Group
  | .transaction ns locality => group.recordTransaction ns locality
  | .partition partition ns isEstimate => group.recordPartition partition ns isEstimate
  | .reconcile => group.reconcile

def after (key : GroupKey) (calls : List Call) : Group := calls.foldl take (new key)

def samplesAt (locality : Locality) (calls : List Call) : List Nat :=
  calls.filterMap (Call.sampleAt? locality)

def samplesOf (partition : PartitionId) (calls : List Call) : List Nat :=
  calls.filterMap (Call.sampleOf? partition)

theorem areClamped_samplesAt {calls : List Call} (inRange : ∀ call ∈ calls, call.IsInRange)
    (locality : Locality) : AreClamped (samplesAt locality calls) := by
  intro ns member
  obtain ⟨call, asked, sampled⟩ := List.mem_filterMap.1 member
  cases call with
  | transaction latency own =>
    have below : latency < 2 ^ 63 := inRange _ asked
    rw [Call.sampleAt?, Option.ite_none_right_eq_some, Option.some.injEq] at sampled
    obtain ⟨_, rfl⟩ := sampled
    exact ⟨Latency.one_le_clamp latency, Latency.clamp_lt below⟩
  | partition | reconcile => cases sampled

structure Keeps (partition : PartitionId) (calls : List Call) (held : Option PartitionSamples) :
    Prop where
  unknown : held = none ↔ samplesOf partition calls = []
  buffer : (held.getD {}).buffer.Remembers (samplesOf partition calls)
  measured : (held.getD {}).measured = calls.any (Call.measures partition)

/-- A group that has taken these calls. -/
structure Took (group : Group) (calls : List Call) : Prop where
  near : group.near.Remembers (samplesAt .near calls)
  far : group.far.Remembers (samplesAt .far calls)
  partitions : ∀ partition, Keeps partition calls (group.partitions.get? partition)

variable {group : Group} {calls : List Call}

theorem took_new (key : GroupKey) : (new key).Took [] :=
  ⟨.empty, .empty, fun _ => ⟨⟨fun _ => rfl, fun _ => rfl⟩, .empty, rfl⟩⟩

theorem samplesAt_concat (locality : Locality) (calls : List Call) (call : Call) :
    samplesAt locality (calls ++ [call]) =
      samplesAt locality calls ++ (call.sampleAt? locality).toList := by
  rw [samplesAt, List.filterMap_append]
  cases known : call.sampleAt? locality with
  | none | some => simp [samplesAt, known]

theorem samplesOf_concat (partition : PartitionId) (calls : List Call) (call : Call) :
    samplesOf partition (calls ++ [call]) =
      samplesOf partition calls ++ (call.sampleOf? partition).toList := by
  rw [samplesOf, List.filterMap_append]
  cases known : call.sampleOf? partition with
  | none | some => simp [samplesOf, known]

/-- A call that has nothing for a partition leaves what the group has of it. -/
theorem Keeps.pass {partition : PartitionId} {held : Option PartitionSamples}
    (keeps : Keeps partition calls held) {call : Call} (silent : call.sampleOf? partition = none)
    (unmeasured : call.measures partition = false) : Keeps partition (calls ++ [call]) held := by
  have same : samplesOf partition (calls ++ [call]) = samplesOf partition calls := by
    rw [samplesOf_concat, silent, Option.toList_none, List.append_nil]
  refine ⟨same ▸ keeps.unknown, same ▸ keeps.buffer, ?_⟩
  simpa [unmeasured] using keeps.measured

theorem Keeps.add {partition : PartitionId} {held : Option PartitionSamples}
    (keeps : Keeps partition calls held) (ns : Int) (isEstimate : Bool) :
    Keeps partition (calls ++ [.partition partition ns isEstimate])
      (some
        { buffer := (held.getD {}).buffer.push (Latency.clamp ns)
          measured := (held.getD {}).measured || !isEstimate }) := by
  have added : samplesOf partition (calls ++ [.partition partition ns isEstimate]) =
      samplesOf partition calls ++ [Latency.clamp ns] := by
    rw [samplesOf_concat, Call.sampleOf?, if_pos rfl]
    rfl
  constructor
  · simp [added]
  · rw [added]
    exact keeps.buffer.push _
  · simp [Call.measures, keeps.measured]

theorem Keeps.median {partition : PartitionId} {held : Option PartitionSamples}
    (keeps : Keeps partition calls held) : Keeps partition calls
      (held.map fun samples => { samples with buffer := samples.buffer.median.2 }) := by
  cases held with
  | none => exact keeps
  | some samples =>
    refine ⟨?_, keeps.buffer.median, keeps.measured⟩
    have known := keeps.unknown
    simpa using known

theorem Took.transaction (took : group.Took calls) (ns : Int) (locality : Locality) :
    (group.recordTransaction ns locality).Took (calls ++ [.transaction ns locality]) := by
  have parts (partition : PartitionId) : Keeps partition (calls ++ [.transaction ns locality])
      (group.partitions.get? partition) := (took.partitions partition).pass rfl rfl
  cases locality with
  | near =>
    refine ⟨?_, ?_, parts⟩
    · rw [samplesAt_concat]
      exact took.near.push (Latency.clamp ns)
    · rw [samplesAt_concat]
      exact (List.append_nil _).symm ▸ took.far
  | far =>
    refine ⟨?_, ?_, parts⟩
    · rw [samplesAt_concat]
      exact (List.append_nil _).symm ▸ took.near
    · rw [samplesAt_concat]
      exact took.far.push (Latency.clamp ns)

theorem Took.partition (took : group.Took calls) (partition : PartitionId) (ns : Int)
    (isEstimate : Bool) : (group.recordPartition partition ns isEstimate).Took
      (calls ++ [.partition partition ns isEstimate]) := by
  constructor
  · rw [samplesAt_concat]
    exact (List.append_nil _).symm ▸ took.near
  · rw [samplesAt_concat]
    exact (List.append_nil _).symm ▸ took.far
  · intro other
    have keeps := took.partitions other
    unfold recordPartition
    simp only [IdMap.get?_upsert]
    by_cases here : other = partition
    · subst here
      rw [if_pos rfl]
      exact keeps.add ns isEstimate
    · rw [if_neg here]
      refine keeps.pass ?_ ?_
      · rw [Call.sampleOf?, if_neg (Ne.symm here)]
      · simp [Call.measures, Ne.symm here]

theorem get?_partitions_reconcile (group : Group) (partition : PartitionId) :
    group.reconcile.partitions.get? partition = (group.partitions.get? partition).map
      fun samples => { samples with buffer := samples.buffer.median.2 } := by
  unfold reconcile
  simp only [IdMap.get?_mapValues, Option.map_map]
  rfl

theorem Took.reconcile (took : group.Took calls) :
    group.reconcile.Took (calls ++ [.reconcile]) := by
  constructor
  · rw [samplesAt_concat]
    exact (List.append_nil _).symm ▸ took.near.median
  · rw [samplesAt_concat]
    exact (List.append_nil _).symm ▸ took.far.median
  · intro partition
    rw [get?_partitions_reconcile]
    exact (took.partitions partition).median.pass rfl rfl

theorem took_after (key : GroupKey) (calls : List Call) : (after key calls).Took calls := by
  induction calls using List.reverseRecOn with
  | nil => exact took_new key
  | append_singleton calls call ih =>
    have step : after key (calls ++ [call]) = (after key calls).take call := by
      rw [after, List.foldl_append]
      rfl
    rw [step]
    cases call with
    | transaction ns locality => exact ih.transaction ns locality
    | partition partition ns isEstimate => exact ih.partition partition ns isEstimate
    | reconcile => exact ih.reconcile

theorem latency_reconcile (group : Group) :
    let near := group.near.median
    let far := group.far.median
    let derived := deriveLatencies near.1 far.1
    group.reconcile.latency = some
      { near := derived.1
        far := derived.2
        observed := (median? (near.2.samples.toList ++ far.2.samples.toList)).getD derived.1.ns
        penalties := group.partitions.mapValues fun _ samples => samples.penalty } :=
  congrArg Figures.latency group.figures_reconcile

theorem latency_reconcile_reconcile (group : Group) :
    group.reconcile.reconcile.latency = group.reconcile.latency := by
  have near : group.reconcile.near.median = group.near.median := group.near.median_median
  have far : group.reconcile.far.median = group.far.median := group.far.median_median
  have penalties : (group.reconcile.partitions.mapValues fun _ samples => samples.penalty) =
      group.partitions.mapValues fun _ samples => samples.penalty := by
    refine IdMap.ext fun partition => ?_
    rw [IdMap.get?_mapValues, IdMap.get?_mapValues, get?_partitions_reconcile, Option.map_map]
    congr 1
    funext samples
    simp [PartitionSamples.penalty, LatencyBuffer.median_median]
  rw [latency_reconcile, latency_reconcile, near, far, penalties]

/-- What a group is told of a partition: the median of what it has of it, or else what a far
transaction takes more than a near one. -/
structure IsCharged (latency : GroupLatency) (partition : PartitionId) (calls : List Call) :
    Prop where
  known : samplesOf partition calls ≠ [] →
    median? (samplesOf partition calls) = some (latency.penalty partition).ns ∧
      ((latency.penalty partition).isEstimate = false ↔
        ∃ call ∈ calls, call.measures partition = true)
  unknown : samplesOf partition calls = [] →
    (latency.penalty partition).ns + latency.near.ns = latency.far.ns ∧
      (latency.penalty partition).isEstimate =
        (latency.near.isEstimate || latency.far.isEstimate)

theorem Keeps.isCharged {partition : PartitionId} {held : Option PartitionSamples}
    (keeps : Keeps partition calls held) {latency : GroupLatency}
    (told : latency.penalties.get? partition = held.map PartitionSamples.penalty)
    (ordered : latency.near.ns ≤ latency.far.ns) : IsCharged latency partition calls := by
  cases held with
  | none =>
    have charged : latency.penalty partition =
        { ns := latency.far.ns - latency.near.ns
          isEstimate := latency.near.isEstimate || latency.far.isEstimate } := by
      rw [GroupLatency.penalty, told]
      rfl
    refine ⟨fun filled => absurd (keeps.unknown.1 rfl) filled, fun _ => ?_⟩
    rw [charged]
    exact ⟨Nat.sub_add_cancel ordered, rfl⟩
  | some samples =>
    have charged : latency.penalty partition = samples.penalty := by
      rw [GroupLatency.penalty, told]
      rfl
    refine ⟨fun filled => ?_, fun empty => nomatch keeps.unknown.2 empty⟩
    obtain ⟨m, known⟩ := exists_median? filled
    have median : samples.buffer.median.1 = some m := keeps.buffer.median_eq.trans known
    have measured : samples.measured = calls.any (Call.measures partition) := keeps.measured
    rw [charged, PartitionSamples.penalty, median, measured]
    refine ⟨known, ?_⟩
    rw [Bool.not_eq_false', List.any_eq_true]

/-- A group after any calls with latencies of a 64-bit clock. Reconciliation derives the near and
the far latency from the samples of either kind and charges each partition with its own; the
next record takes the result back, and another reconciliation repeats it. -/
theorem reconcile_after (key : GroupKey) (calls : List Call)
    (inRange : ∀ call ∈ calls, call.IsInRange) :
    let group := (after key calls).reconcile
    ∃ latency, group.latency = some latency ∧
      Derives (samplesAt .near calls) (samplesAt .far calls) latency.near latency.far ∧
      (∀ partition, IsCharged latency partition calls) ∧
      (∀ call, call ≠ .reconcile → (group.take call).latency = none) ∧
      group.reconcile.latency = some latency := by
  intro group
  have took := took_after key calls
  have derived := derives_deriveLatencies (areClamped_samplesAt inRange .near)
    (areClamped_samplesAt inRange .far)
  rw [← took.near.median_eq, ← took.far.median_eq] at derived
  refine ⟨_, latency_reconcile _, derived, ?_, ?_, ?_⟩
  · intro partition
    refine (took.partitions partition).isCharged ?_ derived.ordered
    exact IdMap.get?_mapValues ..
  · intro call records
    cases call with
    | transaction ns locality => cases locality with | near | far => rfl
    | partition partition ns isEstimate => rfl
    | reconcile => exact absurd rfl records
  · exact (latency_reconcile_reconcile _).trans (latency_reconcile _)

/-- A near latency at the end of the clock's range, above the far one. The far latency is twice
the near one, and the partition counts as measured by the later of its two samples. -/
theorem reconcile_after_slowestNear :
    let key : GroupKey := ⟨"pay", 100, .single 101⟩
    let calls : List Call :=
      [.transaction (2 ^ 63 - 1) .near, .partition 101 9 true, .reconcile, .transaction 5 .far,
        .partition 101 (-4) false]
    (∀ call ∈ calls, call.IsInRange) ∧ ∃ latency,
      (after key calls).reconcile.latency = some latency ∧
        latency.near.ns = 2 ^ 63 - 1 ∧ latency.far = .inferred (2 ^ 64 - 2) ∧
          (latency.penalty 101).ns = 5 ∧ (latency.penalty 101).isEstimate = false := by
  intro key calls
  have inRange : ∀ call ∈ calls, call.IsInRange := by simp [calls, Call.IsInRange]
  obtain ⟨latency, known, derived, charged, _⟩ := reconcile_after key calls inRange
  have near : median? (samplesAt .near calls) = some (2 ^ 63 - 1) :=
    median?_eq_some_iff.2 ⟨[2 ^ 63 - 1], .refl _, by decide, @IsMiddle.one [] [] _ rfl⟩
  have far : median? (samplesAt .far calls) = some 5 :=
    median?_eq_some_iff.2 ⟨[5], .refl _, by decide, @IsMiddle.one [] [] _ rfl⟩
  have network : median? (samplesOf 101 calls) = some 5 :=
    median?_eq_some_iff.2 ⟨[1, 9], .swap .., by decide,
      @IsMiddle.two [] [] _ _ _ rfl (by decide) (by decide)⟩
  have nearNs : latency.near.ns = 2 ^ 63 - 1 :=
    Option.some.inj ((derived.nearMedian (by decide)).symm.trans near)
  have widened : latency.far.isEstimate = true := by
    rw [← Bool.not_eq_false, derived.farMeasured, far, nearNs]
    simp
  have farNs : latency.far.ns = 2 ^ 64 - 2 := by
    have doubled := derived.doubled widened
    rw [nearNs] at doubled
    exact doubled.trans (by decide)
  have penalty := (charged 101).known (by decide)
  refine ⟨inRange, latency, known, nearNs, ?_, ?_, ?_⟩
  · rw [Latency.inferred, ← farNs, ← widened]
  · exact Option.some.inj (penalty.1.symm.trans network)
  · exact penalty.2.2 ⟨.partition 101 (-4) false, by decide, rfl⟩

end Group

end Rebalance
