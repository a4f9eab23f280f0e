import Mathlib.Algebra.GroupWithZero.Nat
import Mathlib.Data.List.DropRight
import Rebalance.Telemetry.Ledger

/-!
What a ledger holds after any calls: the first records up to its cap, and counts of all that came
since it was last cleared. How the records were divided into batches shows in the numbers of
batches only.
-/

namespace Rebalance

theorem take_take_append {β : Type} (n : Nat) (xs ys : List β) :
    (xs.take n ++ ys).take n = (xs ++ ys).take n := by
  have gap : n - min n xs.length = n - xs.length := by omega
  rw [List.take_append, List.take_append, List.take_take, Nat.min_self, List.length_take, gap]

def tally (n : Nat) : Option Nat := if n = 0 then none else some n

theorem getD_tally (n : Nat) : (tally n).getD 0 = n := by
  unfold tally
  split
  · next never => exact never.symm
  · rfl

theorem tally_succ (n : Nat) : tally (n + 1) = some (n + 1) := if_neg (Nat.succ_ne_zero n)

theorem sum_upsertAscending (key : Nat) (entries : List (Nat × Nat)) :
    ((upsertAscending key (·.getD 0 + 1) entries).map (·.2)).sum =
      (entries.map (·.2)).sum + 1 := by
  induction entries with
  | nil => rfl
  | cons entry entries ih =>
    unfold upsertAscending
    split
    · simp only [List.map_cons, List.sum_cons, Option.getD_none]
      omega
    · split
      · simp only [List.map_cons, List.sum_cons, Option.getD_some]
        omega
      · simp only [List.map_cons, List.sum_cons, ih]
        omega

/-- The counts of these records. A partition is counted for every record that names it, be it of
one partition or of several. -/
structure LedgerCounts.Counts (records : List Record) (counts : LedgerCounts) : Prop where
  received : counts.records = records.length
  single : counts.single = records.countP (·.isSingle)
  multi : counts.multi = records.countP (!·.isSingle)
  perPartition : ∀ partition, counts.perPartition.get? partition =
    tally (records.countP (·.partition = some partition))
  named : counts.perPartition.values.sum = records.countP (·.partition.isSome)

namespace LedgerCounts.Counts

theorem new : Counts [] {} := ⟨rfl, rfl, rfl, fun _ => rfl, rfl⟩

theorem countRecord {records : List Record} {counts : LedgerCounts} (told : Counts records counts)
    (record : Record) : Counts (records ++ [record]) (Ledger.countRecord counts record) := by
  have kinds : (Ledger.countRecord counts record).records = counts.records + 1 ∧
      (Ledger.countRecord counts record).single = counts.single + record.isSingle.toNat ∧
      (Ledger.countRecord counts record).multi = counts.multi + (!record.isSingle).toNat := by
    unfold Ledger.countRecord
    cases record.isSingle <;> cases record.partition <;> exact ⟨rfl, rfl, rfl⟩
  have partitions : (Ledger.countRecord counts record).perPartition =
      record.partition.elim counts.perPartition (counts.perPartition.upsert · (·.getD 0 + 1)) := by
    unfold Ledger.countRecord
    cases record.isSingle <;> cases record.partition <;> rfl
  obtain ⟨received, single, multi⟩ := kinds
  constructor
  · rw [received, told.received, List.length_append, List.length_singleton]
  · rw [single, told.single, List.countP_append, List.countP_singleton]
    cases record.isSingle <;> rfl
  · rw [multi, told.multi, List.countP_append, List.countP_singleton]
    cases record.isSingle <;> rfl
  · intro partition
    rw [partitions, List.countP_append, List.countP_singleton]
    cases record.partition with
    | none => exact told.perPartition partition
    | some named =>
      simp only [Option.elim_some, IdMap.get?_upsert, told.perPartition, getD_tally]
      by_cases here : partition = named
      · subst here
        simp [tally_succ]
      · simp [here, Ne.symm here]
  · rw [partitions, List.countP_append, List.countP_singleton]
    cases record.partition with
    | none => exact told.named
    | some named =>
      have added : (counts.perPartition.upsert named (·.getD 0 + 1)).values.sum =
          counts.perPartition.values.sum + 1 := sum_upsertAscending named _
      rw [Option.elim_some, added, told.named]
      rfl

/-- The counts of the same records differ in what is counted apart only. -/
theorem eq_of_dropped {records : List Record} {counts other : LedgerCounts}
    (told : Counts records counts) (toldToo : Counts records other)
    (dropped : other.dropped = counts.dropped) :
    other = { counts with batches := other.batches, emptyBatches := other.emptyBatches } := by
  have received : other.records = counts.records := toldToo.received.trans told.received.symm
  have single : other.single = counts.single := toldToo.single.trans told.single.symm
  have multi : other.multi = counts.multi := toldToo.multi.trans told.multi.symm
  have partitions : other.perPartition = counts.perPartition := by
    apply IdMap.ext
    intro partition
    rw [toldToo.perPartition, told.perPartition]
  rw [← received, ← single, ← multi, ← dropped, ← partitions]

theorem withOthers {records : List Record} {counts : LedgerCounts} (told : Counts records counts)
    (batches emptyBatches dropped : Nat) :
    Counts records { counts with batches, emptyBatches, dropped } :=
  ⟨told.received, told.single, told.multi, told.perPartition, told.named⟩

end LedgerCounts.Counts

namespace Ledger

theorem records_foldl_addRecord (batch : List Record) {ledger : Ledger}
    (fits : ledger.records.length ≤ ledger.maxRetained) :
    (batch.foldl addRecord ledger).maxRetained = ledger.maxRetained ∧
      (batch.foldl addRecord ledger).records =
        (ledger.records ++ batch).take ledger.maxRetained := by
  induction batch generalizing ledger with
  | nil => exact ⟨rfl, by rw [List.append_nil, List.take_of_length_le fits]; rfl⟩
  | cons record batch ih =>
    rw [List.foldl_cons]
    by_cases room : ledger.retained.size < ledger.maxRetained
    · have added : (ledger.addRecord record).records = ledger.records ++ [record] := by
        rw [addRecord, if_pos room]
        exact Array.toList_push
      have same : (ledger.addRecord record).maxRetained = ledger.maxRetained := by
        rw [addRecord, if_pos room]
      have fits : (ledger.addRecord record).records.length ≤
          (ledger.addRecord record).maxRetained := by
        rw [added, same, List.length_append]
        exact room
      obtain ⟨kept, records⟩ := ih fits
      rw [kept, records, added, same, List.append_assoc, List.singleton_append]
      exact ⟨rfl, rfl⟩
    · have added : (ledger.addRecord record).records = ledger.records := by
        rw [addRecord, if_neg room]
        rfl
      have same : (ledger.addRecord record).maxRetained = ledger.maxRetained := by
        rw [addRecord, if_neg room]
      have full : ledger.records.length = ledger.maxRetained :=
        Nat.le_antisymm fits (Nat.le_of_not_lt room)
      have still : (ledger.addRecord record).records.length ≤
          (ledger.addRecord record).maxRetained := by
        rw [added, same]
        exact fits
      obtain ⟨kept, records⟩ := ih still
      rw [kept, records, added, same, List.take_left' full, List.take_left' full]
      exact ⟨rfl, rfl⟩

theorem records_foldBatch (batch : List Record) {ledger : Ledger}
    (fits : ledger.records.length ≤ ledger.maxRetained) :
    (ledger.foldBatch batch).maxRetained = ledger.maxRetained ∧
      (ledger.foldBatch batch).records = (ledger.records ++ batch).take ledger.maxRetained :=
  @records_foldl_addRecord batch (ledger.countBatch batch.isEmpty) fits

theorem countRecord_others (counts : LedgerCounts) (record : Record) :
    (countRecord counts record).batches = counts.batches ∧
      (countRecord counts record).emptyBatches = counts.emptyBatches ∧
      (countRecord counts record).dropped = counts.dropped := by
  unfold countRecord
  cases record.isSingle <;> cases record.partition <;> exact ⟨rfl, rfl, rfl⟩

/-- A ledger with these records, each of them either retained or dropped. -/
structure Holds (records : List Record) (ledger : Ledger) : Prop where
  counted : ledger.counts.Counts records
  balanced : ledger.retained.size + ledger.counts.dropped = records.length

theorem Holds.addRecord {records : List Record} {ledger : Ledger} (holds : ledger.Holds records)
    (record : Record) : (ledger.addRecord record).Holds (records ++ [record]) := by
  have told := holds.counted.countRecord record
  have balanced := holds.balanced
  have same := (countRecord_others ledger.counts record).2.2
  have length : (records ++ [record]).length = records.length + 1 := List.length_append
  unfold Ledger.addRecord
  split
  · refine ⟨told, ?_⟩
    rw [length, ← balanced, Array.size_push, same]
    omega
  · refine ⟨told.withOthers _ _ _, ?_⟩
    rw [length, ← balanced]
    simp only [same]
    omega

theorem Holds.foldl_addRecord {records : List Record} {ledger : Ledger}
    (holds : ledger.Holds records) (batch : List Record) :
    (batch.foldl Ledger.addRecord ledger).Holds (records ++ batch) := by
  induction batch generalizing records ledger with
  | nil => rwa [List.append_nil]
  | cons record batch ih =>
    have later := ih (holds.addRecord record)
    rwa [List.append_assoc, List.singleton_append] at later

theorem batches_foldl_addRecord (batch : List Record) (ledger : Ledger) :
    (batch.foldl addRecord ledger).counts.batches = ledger.counts.batches ∧
      (batch.foldl addRecord ledger).counts.emptyBatches = ledger.counts.emptyBatches := by
  induction batch generalizing ledger with
  | nil => exact ⟨rfl, rfl⟩
  | cons record batch ih =>
    have step : (ledger.addRecord record).counts.batches = ledger.counts.batches ∧
        (ledger.addRecord record).counts.emptyBatches = ledger.counts.emptyBatches := by
      obtain ⟨batches, emptyBatches, _⟩ := countRecord_others ledger.counts record
      unfold addRecord
      split
      · exact ⟨batches, emptyBatches⟩
      · exact ⟨batches, emptyBatches⟩
    obtain ⟨batches, emptyBatches⟩ := ih (ledger.addRecord record)
    rw [List.foldl_cons, batches, emptyBatches]
    exact step

inductive Call
  | fold (batch : List Record)
  | clear
deriving DecidableEq

def take (ledger : Ledger) : Call → Ledger
  | .fold batch => ledger.foldBatch batch
  | .clear => ledger.clear

def after (limit : Nat) (calls : List Call) : Ledger := calls.foldl take { maxRetained := limit }

def Call.batch? : Call → Option (List Record)
  | .fold batch => some batch
  | .clear => none

/-- The batches that came since the ledger was last cleared. -/
def sinceClear (calls : List Call) : List (List Record) :=
  (calls.rtakeWhile (· ≠ .clear)).filterMap Call.batch?

theorem take_after (limit : Nat) (calls : List Call) (call : Call) :
    after limit (calls ++ [call]) = (after limit calls).take call := by
  rw [after, List.foldl_append]
  rfl

theorem sinceClear_concat_clear (calls : List Call) : sinceClear (calls ++ [.clear]) = [] := by
  rw [sinceClear, List.rtakeWhile_concat_neg _ _ _ (by simp), List.filterMap_nil]

theorem sinceClear_concat_fold (calls : List Call) (batch : List Record) :
    sinceClear (calls ++ [.fold batch]) = sinceClear calls ++ [batch] := by
  rw [sinceClear, List.rtakeWhile_concat_pos _ _ _ (by simp), List.filterMap_append]
  rfl

/-- A ledger of a cap that has received these batches since it was last cleared. -/
structure Received (limit : Nat) (batches : List (List Record)) (ledger : Ledger) : Prop where
  room : ledger.maxRetained = limit
  kept : ledger.records = batches.flatten.take limit
  holds : ledger.Holds batches.flatten
  folded : ledger.counts.batches = batches.length
  foldedEmpty : ledger.counts.emptyBatches = batches.countP List.isEmpty

theorem received_new (limit : Nat) : Received limit [] { maxRetained := limit } :=
  ⟨rfl, List.take_nil.symm, ⟨.new, rfl⟩, rfl, rfl⟩

theorem Received.foldBatch {limit : Nat} {batches : List (List Record)} {ledger : Ledger}
    (received : ledger.Received limit batches) (batch : List Record) :
    (ledger.foldBatch batch).Received limit (batches ++ [batch]) := by
  have flat : (batches ++ [batch]).flatten = batches.flatten ++ batch := by simp
  have fits : ledger.records.length ≤ ledger.maxRetained := by
    rw [received.kept, received.room]
    exact List.length_take_le ..
  obtain ⟨room, kept⟩ := records_foldBatch batch fits
  obtain ⟨counted, balanced⟩ := received.holds
  have begun : (ledger.countBatch batch.isEmpty).Holds batches.flatten := by
    unfold countBatch
    cases batch.isEmpty with
    | true => exact ⟨counted.withOthers _ _ _, balanced⟩
    | false => exact ⟨counted.withOthers _ _ _, balanced⟩
  obtain ⟨number, numberEmpty⟩ := batches_foldl_addRecord batch (ledger.countBatch batch.isEmpty)
  constructor
  · exact room.trans received.room
  · rw [kept, received.kept, received.room, flat, take_take_append]
  · rw [flat]
    exact begun.foldl_addRecord batch
  · rw [Ledger.foldBatch, number, List.length_append, List.length_singleton, ← received.folded]
    unfold countBatch
    cases batch.isEmpty <;> rfl
  · rw [Ledger.foldBatch, numberEmpty, List.countP_append, List.countP_singleton,
      ← received.foldedEmpty]
    unfold countBatch
    cases batch.isEmpty <;> rfl

theorem received_after (limit : Nat) (calls : List Call) :
    (after limit calls).Received limit (sinceClear calls) := by
  induction calls using List.reverseRecOn with
  | nil => exact received_new limit
  | append_singleton calls call ih =>
    rw [take_after]
    cases call with
    | fold batch =>
      rw [sinceClear_concat_fold]
      exact ih.foldBatch batch
    | clear =>
      have new : (after limit calls).clear = { maxRetained := limit } := by
        rw [clear, ih.room]
      rw [sinceClear_concat_clear, take, new]
      exact received_new limit

/-- Ledgers of one cap that have received the same records differ in the numbers of batches only. -/
theorem Received.eq_of_flatten {limit : Nat} {batches others : List (List Record)}
    {ledger other : Ledger} (received : ledger.Received limit batches)
    (receivedToo : other.Received limit others) (same : others.flatten = batches.flatten) :
    other = { ledger with counts := { ledger.counts with
      batches := others.length, emptyBatches := others.countP List.isEmpty } } := by
  have room : other.maxRetained = ledger.maxRetained := receivedToo.room.trans received.room.symm
  have kept : other.retained = ledger.retained := by
    apply Array.toList_inj.1
    calc other.retained.toList
      _ = others.flatten.take limit := receivedToo.kept
      _ = batches.flatten.take limit := by rw [same]
      _ = ledger.retained.toList := received.kept.symm
  have dropped : other.counts.dropped = ledger.counts.dropped := by
    have here := received.holds.balanced
    have there := receivedToo.holds.balanced
    rw [kept, same] at there
    omega
  have counts := received.holds.counted.eq_of_dropped (same ▸ receivedToo.holds.counted) dropped
  rw [receivedToo.folded, receivedToo.foldedEmpty] at counts
  rw [← counts, ← room, ← kept]

/-- After any calls a ledger retains the first records, up to its cap, of those that came since it
was last cleared, and counts all of them. Had the same records come in other batches, nothing but
the numbers of batches would differ, and they would be replayed alike. -/
theorem retention_after (limit : Nat) (calls : List Call) :
    let ledger := after limit calls
    let batches := sinceClear calls
    ledger.records = batches.flatten.take limit ∧
      ledger.retained.size + ledger.counts.dropped = ledger.counts.records ∧
      ledger.counts.records = ledger.counts.single + ledger.counts.multi ∧
      ledger.counts.records = batches.flatten.length ∧
      ledger.counts.single = batches.flatten.countP (·.isSingle) ∧
      ledger.counts.batches = batches.length ∧
      ledger.counts.emptyBatches = batches.countP List.isEmpty ∧
      ∀ others, (sinceClear others).flatten = batches.flatten →
        after limit others = { ledger with counts := { ledger.counts with
          batches := (sinceClear others).length
          emptyBatches := (sinceClear others).countP List.isEmpty } } ∧
        ∀ sample topology,
          (after limit others).replayInto sample topology = ledger.replayInto sample topology := by
  intro ledger batches
  have received : ledger.Received limit batches := received_after limit calls
  obtain ⟨counted, balanced⟩ := received.holds
  refine ⟨received.kept, ?_, ?_, counted.received, counted.single, received.folded,
    received.foldedEmpty, fun others same => ?_⟩
  · rw [balanced, counted.received]
  · rw [counted.received, counted.single, counted.multi]
    simp [List.length_eq_countP_add_countP Record.isSingle]
  · have equal := received.eq_of_flatten (received_after limit others) same
    refine ⟨equal, fun sample topology => ?_⟩
    rw [equal]
    rfl

/-- The cap is reached within the only batch, or within the third of four. -/
theorem retention_after_midBatch :
    let look : Record :=
      { txnId := 1, procedure := "look", isSingle := true, partition := some 101
        initiatorHost := 100, initiatorSite := 1, coordinatorSite := 1, latency := 900
        messages := [] }
    let order : Record := { look with txnId := 2, isSingle := false, partition := none }
    let astray : Record := { look with txnId := 3, partition := none }
    let calls : List Call := [.fold [order, order], .clear, .fold [look, order, astray]]
    let others : List Call := [.fold [look], .fold [], .fold [order, astray], .fold []]
    let ledger := after 2 calls
    (sinceClear others).flatten = (sinceClear calls).flatten ∧
      after 2 others = { ledger with counts := { ledger.counts with
        batches := (sinceClear others).length
        emptyBatches := (sinceClear others).countP List.isEmpty } } ∧
      ∀ sample topology,
        (after 2 others).replayInto sample topology = ledger.replayInto sample topology := by
  intro look order astray calls others
  have same : (sinceClear others).flatten = (sinceClear calls).flatten := by decide
  obtain ⟨_, _, _, _, _, _, _, independent⟩ := retention_after 2 calls
  exact ⟨same, independent others same⟩

theorem countP_split (records : List Record) (p q : Record → Bool) :
    records.countP p =
      records.countP (fun record => p record && q record) +
        records.countP (fun record => p record && !q record) := by
  rw [List.countP_eq_countP_filter_add records p q, List.countP_filter, List.countP_filter]

/-- The count of a partition is the number of records that name it. So it is the number of records
of work on that partition alone exactly if no work on several partitions names it, and all counts
together exceed the well-formed work on one partition by what else names a partition. -/
theorem perPartition_after (limit : Nat) (calls : List Call) :
    let counts := (after limit calls).counts
    let records := (sinceClear calls).flatten
    (∀ partition,
      (counts.perPartition.get? partition).getD 0 =
          records.countP (·.partition = some partition) ∧
        ((counts.perPartition.get? partition).getD 0 =
            records.countP (fun record => record.isSingle ∧ record.partition = some partition) ↔
          ∀ record ∈ records, record.partition = some partition → record.isSingle = true)) ∧
      counts.perPartition.values.sum + records.countP (·.isMalformed) =
        counts.single + records.countP (fun record => !record.isSingle && record.partition.isSome) := by
  intro counts records
  have counted : LedgerCounts.Counts records counts := (received_after limit calls).holds.counted
  refine ⟨fun partition => ?_, ?_⟩
  · have told : (counts.perPartition.get? partition).getD 0 =
        records.countP (·.partition = some partition) := by
      rw [counted.perPartition, getD_tally]
    refine ⟨told, ?_⟩
    have parts := countP_split records (·.partition = some partition) (·.isSingle)
    have alone : records.countP (fun record => record.isSingle ∧
        record.partition = some partition) = records.countP (fun record =>
          decide (record.partition = some partition) && record.isSingle) := by
      apply List.countP_congr
      simp [and_comm]
    have others : records.countP (fun record =>
          decide (record.partition = some partition) && !record.isSingle) = 0 ↔
        ∀ record ∈ records, record.partition = some partition → record.isSingle = true := by
      rw [List.countP_eq_zero]
      simp
    rw [told, alone, ← others]
    omega
  · have named := countP_split records (·.partition.isSome) (·.isSingle)
    have single := countP_split records (·.isSingle) (·.partition.isSome)
    have both : records.countP (fun record => record.isSingle && record.partition.isSome) =
        records.countP (fun record => record.partition.isSome && record.isSingle) := by
      simp only [Bool.and_comm]
    have several : records.countP (fun record => !record.isSingle && record.partition.isSome) =
        records.countP (fun record => record.partition.isSome && !record.isSingle) := by
      simp only [Bool.and_comm]
    have malformed : records.countP (·.isMalformed) =
        records.countP (fun record => record.isSingle && !record.partition.isSome) := by
      simp only [Record.isMalformed, Option.not_isSome]
    rw [counted.named, counted.single]
    omega

/-- Work on several partitions that names one is counted as work on that one. -/
theorem perPartition_counts_multi :
    let order : Record :=
      { txnId := 0, procedure := "order", isSingle := false, partition := some 101
        initiatorHost := 100, initiatorSite := 1, coordinatorSite := 1, latency := 900
        messages := [] }
    let calls : List Call := [.fold [order]]
    let counts := (after 2 calls).counts
    let records := (sinceClear calls).flatten
    (counts.perPartition.get? 101).getD 0 ≠
        records.countP (fun record => record.isSingle ∧ record.partition = some 101) ∧
      counts.perPartition.values.sum + records.countP (·.isMalformed) ≠ counts.single := by
  decide

end Ledger

end Rebalance
