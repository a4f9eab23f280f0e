import Rebalance.Proofs.Placement.Regrouped
import Rebalance.Proofs.Sample.Figures
import Rebalance.Proofs.Sample.Filing

/-!
Replaying records below the cap of groups: whatever the order, the counts are the same, each key
has the same figures, and every placement has the same estimate.
-/

namespace Rebalance

def fileOf (topology : Topology) (records : List Record) (key : GroupKey) : Group :=
  (records.filter (·.key? = some key)).foldl (Group.takeRecord topology) (Group.new key)

theorem holds_fileOf (topology : Topology) (records : List Record) (key : GroupKey) :
    (fileOf topology records key).Holds topology (records.filter (·.key? = some key)) :=
  (Group.holds_new topology key).foldl_takeRecord _

theorem transactions_fileOf (topology : Topology) (records : List Record) (key : GroupKey) :
    (fileOf topology records key).transactions = records.countP (·.key? = some key) := by
  rw [(holds_fileOf topology records key).transactions, List.countP_eq_length_filter]

theorem fileOf_concat_of_malformed (topology : Topology) (records : List Record) {record : Record}
    (malformed : record.key? = none) :
    fileOf topology (records ++ [record]) = fileOf topology records := by
  funext key
  rw [fileOf, List.filter_append, List.filter_cons_of_neg (by simp [malformed]), List.filter_nil,
    List.append_nil, fileOf]

theorem fileOf_concat (topology : Topology) (records : List Record) {record : Record}
    {key : GroupKey} (known : record.key? = some key) :
    fileOf topology (records ++ [record]) =
      Function.update (fileOf topology records) key
        ((fileOf topology records key).takeRecord topology record) := by
  funext other
  unfold fileOf
  rw [List.filter_append]
  by_cases same : other = key
  · subst same
    rw [Function.update_self, List.filter_cons_of_pos (by simp [known]), List.filter_nil,
      List.foldl_append]
    rfl
  · have differs : record.key? ≠ some other := by
      rw [known]
      exact fun equal => same (Option.some.inj equal).symm
    rw [Function.update_of_ne same, List.filter_cons_of_neg (by simp [differs]), List.filter_nil,
      List.append_nil]

/-- A sample that has taken these records and nothing else, none of them beyond the cap. -/
structure Sample.Replays (sample : Sample) (topology : Topology) (cap : Nat)
    (records : List Record) : Prop where
  cap : sample.cap = cap
  filed : ∃ keys, sample.Files keys (fileOf topology records) ∧
    ∀ key, key ∈ keys ↔ ∃ record ∈ records, record.key? = some key

theorem Group.core_eq {group other : Group} (sameKey : group.key = other.key)
    (same : group.figures = other.figures) : group.core = other.core := by
  have transactions := congrArg Figures.transactions same
  have latency := congrArg Figures.latency same
  change group.transactions = other.transactions at transactions
  change group.latency = other.latency at latency
  rw [core, core, sameKey, transactions, latency]

namespace Sample

variable {topology : Topology}

theorem replays_new (topology : Topology) (cap : Nat) :
    (Sample.new cap).Replays topology (max cap 1) [] :=
  ⟨rfl, [], Files.new cap, by simp⟩

theorem Files.takeCharges {sample : Sample} {keys : List GroupKey} {file : GroupKey → Group}
    (files : sample.Files keys file) {key : GroupKey} (present : key ∈ keys)
    (charges : List (PartitionId × Int)) :
    (charges.foldl (fun sample charge => (sample.recordPartition key charge.1 charge.2 false).2)
      sample).Files keys (Function.update file key ((file key).takeCharges charges)) := by
  induction charges generalizing sample file with
  | nil =>
    rw [show (file key).takeCharges [] = file key from rfl, Function.update_eq_self]
    exact files
  | cons charge charges ih =>
    have first := files.recordPartition key charge.1 charge.2 false
    rw [show withKey keys key = keys from if_pos present] at first
    have later := ih first
    rwa [Function.update_self, Function.update_idem] at later

/-- One more record goes into the file of its key, as long as there is room. -/
theorem Replays.replayRecord {state : ReplayStats × Sample} {cap : Nat} {records : List Record}
    (replays : state.2.Replays topology cap records) {record : Record}
    (room : ∀ key, record.key? = some key → records.countP (·.key? = some key) < cap) :
    (replayRecord topology state record).2.Replays topology cap (records ++ [record]) := by
  obtain ⟨same, keys, files, known⟩ := replays
  unfold Rebalance.replayRecord
  cases key? : record.key? with
  | none =>
    refine ⟨same, keys, ?_, ?_⟩
    · rw [fileOf_concat_of_malformed topology records key?]
      exact files
    · intro key
      simp [known, key?]
  | some key =>
    have space : (fileOf topology records key).transactions < state.2.cap := by
      rw [transactions_fileOf, same]
      exact room key key?
    have recorded := files.recordTransaction record.latency (record.locality topology) space
    have present : key ∈ Files.withKey keys key := Files.mem_withKey.2 (.inr rfl)
    have charged := recorded.takeCharges present (record.charges topology)
    refine ⟨?_, Files.withKey keys key, ?_, ?_⟩
    · exact (cap_foldl_recordPartition ..).trans ((cap_recordTransaction ..).trans same)
    · rw [fileOf_concat topology records key?]
      rwa [Function.update_self, Function.update_idem] at charged
    · intro other
      simp only [Files.mem_withKey, known, List.mem_append, List.mem_singleton, or_and_right,
        exists_or, exists_eq_left, key?, Option.some.injEq]
      exact or_congr_right eq_comm

theorem Replays.foldl_replayRecord {state : ReplayStats × Sample} {cap : Nat}
    {earlier : List Record} (replays : state.2.Replays topology cap earlier) (records : List Record)
    (below : ∀ key, (earlier ++ records).countP (·.key? = some key) ≤ cap) :
    (records.foldl (Rebalance.replayRecord topology) state).2.Replays topology cap
      (earlier ++ records) := by
  induction records generalizing state earlier with
  | nil =>
    rw [List.append_nil]
    exact replays
  | cons record records ih =>
    have room (key : GroupKey) (known : record.key? = some key) :
        earlier.countP (·.key? = some key) < cap := by
      have counted := below key
      rw [List.countP_append, List.countP_cons_of_pos (by simp [known])] at counted
      omega
    rw [List.append_cons] at below
    have later := ih (replays.replayRecord room) below
    rwa [List.append_assoc, List.singleton_append] at later

def figures (sample : Sample) (key : GroupKey) : List Figures :=
  (sample.groups.toList.filter (·.key = key)).map Group.figures

theorem Files.figures_reconcile {sample : Sample} {keys : List GroupKey}
    {file : GroupKey → Group} (files : sample.Files keys file) (key : GroupKey) :
    sample.reconcile.figures key = if key ∈ keys then [(file key).reconcile.figures] else [] := by
  have listed : sample.reconcile.groups.toList = keys.map fun key => (file key).reconcile := by
    rw [reconcile, Array.toList_map, files.listed, List.map_map]
    rfl
  have same (other : GroupKey) : (file other).reconcile.key = other := files.keyed other
  have alone : keys.filter (fun other => (file other).reconcile.key = key) =
      List.replicate (keys.count key) key := by
    simp only [same]
    exact List.filter_eq key
  rw [figures, listed, List.filter_map, List.map_map]
  simp only [Function.comp_def]
  rw [alone, files.distinct.count]
  split
  · rfl
  · rfl

theorem Files.cores_reconcile {sample : Sample} {keys : List GroupKey}
    {file : GroupKey → Group} (files : sample.Files keys file) :
    sample.reconcile.cores = keys.map fun key => (file key).reconcile.core := by
  rw [cores, reconcile, Array.toList_map, files.listed, List.map_map, List.map_map]
  rfl

end Sample

def ReplayStats.take (topology : Topology) (stats : ReplayStats) (record : Record) : ReplayStats :=
  match record.key? with
  | none => { stats with malformed := stats.malformed + 1 }
  | some _ => stats.count (record.locality topology) (record.charges topology).length

theorem stats_foldl_replayRecord (topology : Topology) (records : List Record)
    (state : ReplayStats × Sample) :
    (records.foldl (replayRecord topology) state).1 =
      records.foldl (ReplayStats.take topology) state.1 := by
  induction records generalizing state with
  | nil => rfl
  | cons record records ih =>
    have step : (replayRecord topology state record).1 = state.1.take topology record := by
      unfold replayRecord ReplayStats.take
      cases record.key? with
      | none => rfl
      | some key => rfl
    rw [List.foldl_cons, List.foldl_cons, ih, step]

theorem Record.locality_eq_near {topology : Topology} {record : Record} :
    record.locality topology = .near ↔
      topology.hostOfSite record.coordinatorSite = some record.initiatorHost := by
  unfold locality
  split
  · next here => exact iff_of_true rfl here
  · next there => exact iff_of_false (by decide) there

theorem countP_near_add_countP_far (topology : Topology) (records : List Record) :
    records.countP (·.locality topology = .near) + records.countP (·.locality topology = .far) =
      records.length := by
  rw [List.length_eq_countP_add_countP (·.locality topology = .near)]
  refine congrArg (_ + ·) (List.countP_congr fun record _ => ?_)
  cases record.locality topology with
  | near => simp
  | far => simp

/-- Well-formed records are near or far, and all that they charge is counted. -/
theorem ReplayStats.foldl_take_eq (topology : Topology) (records : List Record)
    (stats : ReplayStats) :
    let valid := records.filter (!·.isMalformed)
    records.foldl (take topology) stats =
      { near := stats.near + valid.countP (·.locality topology = .near)
        far := stats.far + valid.countP (·.locality topology = .far)
        malformed := stats.malformed + records.countP (·.isMalformed)
        partitionLatencies := stats.partitionLatencies +
          (valid.map fun record => (record.charges topology).length).sum } := by
  induction records generalizing stats with
  | nil => rfl
  | cons record records ih =>
    cases known : record.key? with
    | none =>
      have malformed := Record.key?_eq_none_iff.1 known
      have step : stats.take topology record = { stats with malformed := stats.malformed + 1 } := by
        rw [take, known]
      rw [List.foldl_cons, ih, step]
      simp [malformed, Nat.add_assoc, Nat.add_comm 1]
    | some key =>
      have formed := Record.isMalformed_of_key? known
      have step : stats.take topology record =
          stats.count (record.locality topology) (record.charges topology).length := by
        rw [take, known]
      rw [List.foldl_cons, ih, step]
      cases place : record.locality topology with
      | near => simp [count, place, formed, Nat.add_assoc, Nat.add_comm 1]
      | far => simp [count, place, formed, Nat.add_assoc, Nat.add_comm 1]

theorem ReplayStats.foldl_take (topology : Topology) (records : List Record)
    (known : ∀ record ∈ records, record.key?.isSome = true) (stats : ReplayStats) :
    records.foldl (take topology) stats =
      { near := stats.near + records.countP (·.locality topology = .near)
        far := stats.far + records.countP (·.locality topology = .far)
        malformed := stats.malformed
        partitionLatencies := stats.partitionLatencies +
          (records.map fun record => (record.charges topology).length).sum } := by
  have formed : ∀ record ∈ records, record.isMalformed = false := by
    intro record member
    obtain ⟨key, found⟩ := Option.isSome_iff_exists.1 (known record member)
    exact Record.isMalformed_of_key? found
  have valid : records.filter (!·.isMalformed) = records :=
    List.filter_eq_self.2 fun record member => by rw [formed record member]; rfl
  have none : records.countP (·.isMalformed) = 0 :=
    List.countP_eq_zero.2 fun record member => by simp [formed record member]
  rw [foldl_take_eq, valid, none, Nat.add_zero]

theorem ReplayStats.count_right_comm (stats : ReplayStats) (first second : Locality) (m n : Nat) :
    (stats.count first m).count second n = (stats.count second n).count first m := by
  cases first <;> cases second <;> simp [ReplayStats.count, Nat.add_right_comm]

instance (topology : Topology) : RightCommutative (ReplayStats.take topology) where
  right_comm stats first second := by
    unfold ReplayStats.take
    cases first.key? with
    | none =>
      cases second.key? with
      | none => rfl
      | some key => cases second.locality topology <;> rfl
    | some key =>
      cases second.key? with
      | none => cases first.locality topology <;> rfl
      | some other => exact stats.count_right_comm ..

/-- Records may be replayed in any order, as long as no key has more of them than the cap: the
counts are equal, each key has the same figures, and each placement the same estimate. -/
theorem replay_perm {K : Type} [ExactField K] (topology : Topology) (cap : Nat)
    (records others : List Record) (shuffled : records.Perm others)
    (below : ∀ key, records.countP (·.key? = some key) ≤ max cap 1) :
    let first := replayRecords records (.new cap) topology
    let second := replayRecords others (.new cap) topology
    first.1 = second.1 ∧
      (∀ key, first.2.reconcile.figures key = second.2.reconcile.figures key) ∧
        ∀ placement, (estimatedTime first.2.reconcile placement : K) =
          estimatedTime second.2.reconcile placement := by
  intro first second
  have belowToo : ∀ key, others.countP (·.key? = some key) ≤ max cap 1 :=
    fun key => shuffled.countP_eq _ ▸ below key
  have start : (({}, .new cap) : ReplayStats × Sample).2.Replays topology (max cap 1) [] :=
    Sample.replays_new topology cap
  obtain ⟨_, keys, files, known⟩ := start.foldl_replayRecord records below
  obtain ⟨_, keysToo, filesToo, knownToo⟩ := start.foldl_replayRecord others belowToo
  have same (key : GroupKey) : key ∈ keys ↔ key ∈ keysToo := by
    rw [known, knownToo]
    exact exists_congr fun record => and_congr_left fun _ => shuffled.mem_iff
  have figures (key : GroupKey) : (fileOf topology records key).reconcile.figures =
      (fileOf topology others key).reconcile.figures :=
    (holds_fileOf ..).figures_eq (holds_fileOf ..) (shuffled.filter _)
  refine ⟨?_, ?_, ?_⟩
  · exact (stats_foldl_replayRecord ..).trans
      ((shuffled.foldl_eq _).trans (stats_foldl_replayRecord ..).symm)
  · intro key
    have here : first.2.reconcile.figures key = _ := files.figures_reconcile key
    have there : second.2.reconcile.figures key = _ := filesToo.figures_reconcile key
    rw [here, there]
    simp only [same key]
    exact congrArg (fun figures => if key ∈ keysToo then [figures] else []) (figures key)
  · intro placement
    have shared : keys.Perm keysToo :=
      (List.perm_ext_iff_of_nodup files.distinct filesToo.distinct).2 same
    have cores (key : GroupKey) : (fileOf topology records key).reconcile.core =
        (fileOf topology others key).reconcile.core :=
      Group.core_eq ((files.keyed key).trans (filesToo.keyed key).symm) (figures key)
    have here : first.2.reconcile.cores = _ := files.cores_reconcile
    have there : second.2.reconcile.cores = _ := filesToo.cores_reconcile
    apply estimatedTime_eq_of_perm
    rw [here, there]
    exact (List.Perm.of_eq (List.map_congr_left fun key _ => cores key)).trans (shared.map _)

/-- Two orders of three records, which open their groups in different orders. -/
theorem replay_perm_reversed :
    let topology : Topology :=
      .new [100, 200] [⟨1, 100, some 101, true⟩, ⟨2, 200, some 102, true⟩]
    let near : Record :=
      { txnId := 1, procedure := "pay", isSingle := true, partition := some 101
        initiatorHost := 100, initiatorSite := 1, coordinatorSite := 1, latency := 900
        messages := [] }
    let far : Record :=
      { near with txnId := 2, coordinatorSite := 2, latency := 2400
                  messages := [⟨1, 2, 1000, 1700⟩] }
    let order : Record :=
      { near with txnId := 3, procedure := "order", isSingle := false, partition := none
                  messages := [⟨1, 2, 1000, 1300⟩] }
    let first := replayRecords [near, far, order] (.new 3) topology
    let second := replayRecords [order, far, near] (.new 3) topology
    first.2.reconcile ≠ second.2.reconcile ∧ first.1 = second.1 ∧
      (∀ key, first.2.reconcile.figures key = second.2.reconcile.figures key) ∧
        (estimatedTime first.2.reconcile topology.placement : ℚ) =
          estimatedTime second.2.reconcile topology.placement := by
  intro topology near far order first second
  have shuffled : [near, far, order].Perm [order, far, near] := List.reverse_perm [order, far, near]
  obtain ⟨counts, figures, estimates⟩ := replay_perm (K := ℚ) topology 3 _ _ shuffled
    fun key => List.countP_le_length
  exact ⟨by decide +kernel, counts, figures, estimates topology.placement⟩

end Rebalance
