import Mathlib.Algebra.Order.Floor.Div
import Rebalance.Proofs.Sample.Penalties
import Rebalance.Proofs.Schedule.Time

/-!
What a sample is after any calls. Each key's transactions are divided among its groups in order
of arrival, every group but the newest full, and the lists of groups by key and by scope only
grow at their ends.
-/

namespace Rebalance

theorem forall₂_concat_iff {α β : Type} {R : α → β → Prop} {as : List α} {bs : List β} {a : α}
    {b : β} : List.Forall₂ R (as ++ [a]) (bs ++ [b]) ↔ List.Forall₂ R as bs ∧ R a b := by
  rw [← List.forall₂_reverse_iff, List.reverse_concat, List.reverse_concat, List.forall₂_cons,
    List.forall₂_reverse_iff, and_comm]

theorem exists_of_forall₂_concat {α β : Type} {R : α → β → Prop} {as : List α} {a : α}
    {bs : List β} (held : List.Forall₂ R (as ++ [a]) bs) :
    ∃ before b, bs = before ++ [b] ∧ List.Forall₂ R as before ∧ R a b := by
  rcases List.eq_nil_or_concat' bs with rfl | ⟨before, b, rfl⟩
  · exact absurd (List.forall₂_nil_right_iff.1 held) (List.concat_ne_nil _ _)
  · exact ⟨before, b, rfl, forall₂_concat_iff.1 held⟩

section Dividing

variable {β : Type} {width : Nat} {entries last : List β} {full : List (List β)}

/-- Entries in parts of one width and a part at the end, which is empty only if it is alone. -/
structure Divides (width : Nat) (entries : List β) (full : List (List β)) (last : List β) :
    Prop where
  whole : full.flatten ++ last = entries
  filled : ∀ part ∈ full, part.length = width
  narrow : last.length ≤ width
  opened : full ≠ [] → last ≠ []

theorem divides_nil (width : Nat) : Divides width ([] : List β) [] [] :=
  ⟨rfl, fun _ member => absurd member List.not_mem_nil, Nat.zero_le _, fun some => absurd rfl some⟩

theorem Divides.extend (divides : Divides width entries full last) (room : last.length < width)
    (entry : β) : Divides width (entries ++ [entry]) full (last ++ [entry]) := by
  refine ⟨?_, divides.filled, ?_, ?_⟩
  · rw [← List.append_assoc, divides.whole]
  · rw [List.length_append, List.length_singleton]
    exact room
  · exact fun _ => List.append_ne_nil_of_right_ne_nil _ (List.cons_ne_nil _ _)

theorem Divides.open (divides : Divides width entries full last) (taken : width ≤ last.length)
    (positive : 0 < width) (entry : β) :
    Divides width (entries ++ [entry]) (full ++ [last]) [entry] := by
  refine ⟨?_, ?_, positive, ?_⟩
  · rw [List.flatten_append, List.flatten_singleton, divides.whole]
  · intro part member
    rcases List.mem_append.1 member with earlier | newest
    · exact divides.filled part earlier
    · rw [List.mem_singleton.1 newest]
      exact Nat.le_antisymm divides.narrow taken
  · exact fun _ => List.cons_ne_nil _ _

/-- As many parts as the width goes into the entries, rounded up, and never none. -/
theorem Divides.length_eq (divides : Divides width entries full last) (positive : 0 < width) :
    (full ++ [last]).length = max 1 (entries.length ⌈/⌉ width) := by
  have lengths : full.map List.length = List.replicate full.length width :=
    List.eq_replicate_iff.2 ⟨List.length_map _, by simpa using divides.filled⟩
  have total : entries.length = full.length * width + last.length := by
    rw [← divides.whole, List.length_append, List.length_flatten, lengths, List.sum_replicate,
      smul_eq_mul]
  have narrow := divides.narrow
  rw [List.length_append, List.length_singleton, Nat.ceilDiv_eq_add_pred_div, total]
  by_cases alone : full = []
  · subst alone
    have bound : (last.length + width - 1) / width ≤ 1 :=
      Nat.le_of_lt_succ ((Nat.div_lt_iff_lt_mul positive).2 (by omega))
    simp only [List.length_nil, Nat.zero_mul, Nat.zero_add]
    omega
  · have filled : 0 < last.length := List.length_pos_iff.2 (divides.opened alone)
    have rearranged : full.length * width + last.length + width - 1 =
        last.length - 1 + (full.length + 1) * width := by
      rw [Nat.add_mul]
      omega
    rw [rearranged, Nat.add_mul_div_right _ _ positive, Nat.div_eq_of_lt (by omega)]
    omega

end Dividing

theorem LatencyBuffer.samples_median (buffer : LatencyBuffer) :
    buffer.median.2.samples = buffer.samples := by
  unfold median
  cases buffer.cached with
  | none | some => rfl

def latenciesIn (locality : Locality) (share : List (Int × Locality)) : List Nat :=
  (share.filter (·.2 = locality)).map (Latency.clamp ·.1)

structure Group.Counts (share : List (Int × Locality)) (group : Group) : Prop where
  transactions : group.transactions = share.length
  near : group.near.samples.toList = latenciesIn .near share
  far : group.far.samples.toList = latenciesIn .far share

namespace Group.Counts

variable {share : List (Int × Locality)} {group : Group}

theorem new (key : GroupKey) : (Group.new key).Counts [] := ⟨rfl, rfl, rfl⟩

theorem transaction (counts : group.Counts share) (ns : Int) (locality : Locality) :
    (group.recordTransaction ns locality).Counts (share ++ [(ns, locality)]) := by
  have length : group.transactions + 1 = (share ++ [(ns, locality)]).length := by
    rw [counts.transactions, List.length_append, List.length_singleton]
  have added (own : Locality) : latenciesIn own (share ++ [(ns, locality)]) =
      latenciesIn own share ++ if locality = own then [Latency.clamp ns] else [] := by
    unfold latenciesIn
    by_cases here : locality = own <;> simp [here]
  cases locality with
  | near =>
    refine ⟨length, ?_, ?_⟩
    · rw [added, if_pos rfl, ← counts.near]
      exact Array.toList_push
    · rw [added, if_neg (by decide), List.append_nil]
      exact counts.far
  | far =>
    refine ⟨length, ?_, ?_⟩
    · rw [added, if_neg (by decide), List.append_nil]
      exact counts.near
    · rw [added, if_pos rfl, ← counts.far]
      exact Array.toList_push

theorem partition (counts : group.Counts share) (partition : PartitionId) (ns : Int)
    (isEstimate : Bool) : (group.recordPartition partition ns isEstimate).Counts share :=
  ⟨counts.transactions, counts.near, counts.far⟩

theorem reconcile (counts : group.Counts share) : group.reconcile.Counts share := by
  refine ⟨counts.transactions, ?_, ?_⟩
  · rw [← counts.near]
    exact congrArg Array.toList group.near.samples_median
  · rw [← counts.far]
    exact congrArg Array.toList group.far.samples_median

theorem transactions_eq (counts : group.Counts share) :
    group.transactions = group.near.size + group.far.size := by
  have near : group.near.size = (latenciesIn .near share).length := by
    rw [← counts.near]
    exact Array.length_toList.symm
  have far : group.far.size = (latenciesIn .far share).length := by
    rw [← counts.far]
    exact Array.length_toList.symm
  have others : share.filter (fun entry => !decide (entry.2 = .near)) =
      share.filter (·.2 = .far) := by
    refine List.filter_congr fun entry _ => ?_
    cases entry.2 with
    | near | far => rfl
  have split := (List.filter_append_perm (·.2 = .near) share).length_eq
  rw [others, List.length_append] at split
  rw [near, far, counts.transactions, latenciesIn, latenciesIn, List.length_map, List.length_map]
  exact split.symm

end Group.Counts

namespace Sample

variable {sample : Sample} {key other : GroupKey} {id : GroupId}

theorem map_subgroups (sample : Sample) (key : GroupKey) :
    (sample.subgroups key).map sample.group? = (sample.groupsOf key).map some := by
  rw [groupsOf, subgroups, sample.listed_byKey, ← sample.map_idsWhere (·.key = key) some none]
  refine List.map_congr_left fun id _ => ?_
  cases sample.group? id with
  | none | some => rfl

theorem groupsOf_eq_nil (unknown : sample.newestId? key = none) : sample.groupsOf key = [] := by
  rw [newestId?_eq] at unknown
  have listed := sample.map_subgroups key
  rw [List.getLast?_eq_none_iff.1 unknown] at listed
  exact List.map_eq_nil_iff.1 listed.symm

theorem groupsOf_openGroup (sample : Sample) (key other : GroupKey) :
    (sample.openGroup key).2.groupsOf other =
      sample.groupsOf other ++ if key = other then [Group.new key] else [] := by
  unfold groupsOf
  rw [toList_openGroup, List.filter_append, List.filter_cons, List.filter_nil]
  simp only [decide_eq_true_eq]
  rfl

theorem totalTransactions_eq_sum (sample : Sample) :
    sample.totalTransactions = (sample.groups.toList.map (·.transactions)).sum := by
  rw [totalTransactions, ← Array.foldl_toList, ← List.foldl_map, List.sum_eq_foldl]

theorem IsNewest.totalTransactions (newest : sample.IsNewest key id) {f : Group → Group} {n : Nat}
    (keeps : ∀ group, (f group).key = group.key)
    (added : ∀ group, (f group).transactions = group.transactions + n) :
    (sample.modifyGroup id f keeps).totalTransactions = sample.totalTransactions + n := by
  obtain ⟨before, group, after, listed, _, _, _, modified⟩ := newest.modify
  rw [totalTransactions_eq_sum, totalTransactions_eq_sum, modified, listed]
  simp only [List.map_append, List.map_cons, List.sum_append, List.sum_cons, added]
  omega

theorem totalTransactions_openGroup (sample : Sample) (key : GroupKey) :
    (sample.openGroup key).2.totalTransactions = sample.totalTransactions := by
  rw [totalTransactions_eq_sum, totalTransactions_eq_sum, toList_openGroup, List.map_append,
    List.sum_append]
  rfl

/-- The groups of a key after a change that its newest group takes if it is fit for it, and a new
group otherwise. -/
inductive Takes (fit : Group → Prop) (f : Group → Group) (key : GroupKey) (groups : List Group) :
    List Group → Prop
  | newest {earlier : List Group} {group : Group} (split : groups = earlier ++ [group])
      (fits : fit group) : Takes fit f key groups (earlier ++ [f group])
  | opened (unfit : ∀ group ∈ groups.getLast?, ¬ fit group) :
      Takes fit f key groups (groups ++ [f (Group.new key)])

/-- A sample after such a change, which leaves the groups of other keys alone. -/
structure Changes (fit : Group → Prop) (f : Group → Group) (key : GroupKey)
    (sample later : Sample) : Prop where
  own : Takes fit f key (sample.groupsOf key) (later.groupsOf key)
  others : ∀ other ≠ key, later.groupsOf other = sample.groupsOf other
  total : ∀ n, (∀ group, (f group).transactions = group.transactions + n) →
    later.totalTransactions = sample.totalTransactions + n

section
variable {fit : Group → Prop} {f : Group → Group}

theorem changes_of_fit (keeps : ∀ group, (f group).key = group.key)
    (found : sample.newestId? key = some id) (fits : ∀ group ∈ sample.group? id, fit group) :
    Changes fit f key sample (sample.modifyGroup id f keeps) := by
  have newest := isNewest_of_newestId? found
  obtain ⟨earlier, group, split, here, modified⟩ := newest.groupsOf
  obtain ⟨own, others⟩ := modified f keeps
  refine ⟨?_, others, fun n added => newest.totalTransactions keeps added⟩
  rw [own]
  exact .newest split (fits group here)

theorem changes_of_unfit (keeps : ∀ group, (f group).key = group.key)
    (unfit : ∀ group ∈ (sample.groupsOf key).getLast?, ¬ fit group) :
    Changes fit f key sample
      ((sample.openGroup key).2.modifyGroup (sample.openGroup key).1 f keeps) := by
  have newest := (sample.openGroup_spec key).1
  obtain ⟨earlier, group, split, _, modified⟩ := newest.groupsOf
  obtain ⟨own, others⟩ := modified f keeps
  rw [groupsOf_openGroup, if_pos rfl] at split
  obtain ⟨before, last⟩ := List.append_inj' split rfl
  refine ⟨?_, fun other differs => ?_, fun n added => ?_⟩
  · rw [own, ← before, ← List.singleton_inj.1 last]
    exact .opened unfit
  · rw [others other differs, groupsOf_openGroup, if_neg (Ne.symm differs), List.append_nil]
  · rw [newest.totalTransactions keeps added, totalTransactions_openGroup]

end

/-- A transaction goes to its key's newest group while that is below the cap. -/
theorem changes_recordTransaction (sample : Sample) (key : GroupKey) (ns : Int)
    (locality : Locality) :
    Changes (·.transactions < sample.cap) (·.recordTransaction ns locality) key sample
      (sample.recordTransaction key ns locality).2 := by
  have keeps (group : Group) := group.key_recordTransaction ns locality
  unfold recordTransaction groupForTransaction
  cases found : sample.newestId? key with
  | none =>
    refine changes_of_unfit keeps fun group last => ?_
    rw [groupsOf_eq_nil found] at last
    cases last
  | some id =>
    obtain ⟨earlier, newest, split, here, _⟩ := (isNewest_of_newestId? found).groupsOf
    change sample.groups[id]? = some newest at here
    simp only [here, Option.any_some, decide_eq_true_eq]
    by_cases room : newest.transactions < sample.cap
    · rw [if_pos room]
      refine changes_of_fit keeps found fun group there => ?_
      rw [group?, here, Option.mem_some_iff] at there
      exact there ▸ room
    · rw [if_neg room]
      refine changes_of_unfit keeps fun group last => ?_
      rw [split, List.getLast?_concat, Option.mem_some_iff] at last
      exact last ▸ room

/-- A partition latency goes to its key's newest group, however full that is. -/
theorem changes_recordPartition (sample : Sample) (key : GroupKey) (partition : PartitionId)
    (ns : Int) (isEstimate : Bool) :
    Changes (fun _ => True) (·.recordPartition partition ns isEstimate) key sample
      (sample.recordPartition key partition ns isEstimate).2 := by
  have keeps (group : Group) : (group.recordPartition partition ns isEstimate).key = group.key :=
    rfl
  unfold recordPartition groupForPartition
  cases found : sample.newestId? key with
  | none =>
    refine changes_of_unfit keeps fun group last => ?_
    rw [groupsOf_eq_nil found] at last
    cases last
  | some id => exact changes_of_fit keeps found fun _ _ => trivial

theorem subgroups_openGroup (sample : Sample) (key other : GroupKey) :
    (sample.openGroup key).2.subgroups other =
      sample.subgroups other ++ if key = other then [sample.size] else [] :=
  listedUnder_listUnder other key sample.size sample.byKey

theorem subgroups_prefix_openGroup (sample : Sample) (key other : GroupKey) :
    sample.subgroups other <+: (sample.openGroup key).2.subgroups other := by
  rw [subgroups_openGroup]
  exact List.prefix_append _ _

inductive Call
  | transaction (key : GroupKey) (ns : Int) (locality : Locality)
  | partition (key : GroupKey) (partition : PartitionId) (ns : Int) (isEstimate : Bool)
  | reconcile
  | clear
deriving DecidableEq

namespace Call

/-- The key that the call records something of. -/
def key? : Call → Option GroupKey
  | .transaction key _ _ => some key
  | .partition key _ _ _ => some key
  | _ => none

def isTransaction : Call → Bool
  | .transaction _ _ _ => true
  | _ => false

def transactionOf? (key : GroupKey) : Call → Option (Int × Locality)
  | .transaction own ns locality => if own = key then some (ns, locality) else none
  | _ => none

end Call

def take (sample : Sample) : Call → Sample
  | .transaction key ns locality => (sample.recordTransaction key ns locality).2
  | .partition key partition ns isEstimate =>
    (sample.recordPartition key partition ns isEstimate).2
  | .reconcile => sample.reconcile
  | .clear => sample.clear

def after (cap : Nat) (calls : List Call) : Sample := calls.foldl take (new cap)

/-- The calls since the sample was last cleared. -/
def sinceClear (calls : List Call) : List Call := calls.rtakeWhile (· ≠ .clear)

def transactionsOf (key : GroupKey) (calls : List Call) : List (Int × Locality) :=
  calls.filterMap (Call.transactionOf? key)

def IsRecorded (key : GroupKey) (calls : List Call) : Prop := ∃ call ∈ calls, call.key? = some key

theorem take_after (cap : Nat) (calls : List Call) (call : Call) :
    after cap (calls ++ [call]) = (after cap calls).take call := by
  rw [after, List.foldl_append]
  rfl

theorem sinceClear_concat_clear (calls : List Call) : sinceClear (calls ++ [.clear]) = [] :=
  List.rtakeWhile_concat_neg _ _ _ (by simp)

theorem sinceClear_concat (calls : List Call) (call : Call) (goesOn : call ≠ .clear) :
    sinceClear (calls ++ [call]) = sinceClear calls ++ [call] :=
  List.rtakeWhile_concat_pos _ _ _ (by simpa using goesOn)

theorem transactionsOf_concat (key : GroupKey) (calls : List Call) (call : Call) :
    transactionsOf key (calls ++ [call]) =
      transactionsOf key calls ++ (call.transactionOf? key).toList := by
  rw [transactionsOf, List.filterMap_append]
  cases known : call.transactionOf? key with
  | none | some => simp [transactionsOf, known]

theorem isRecorded_concat (key : GroupKey) (calls : List Call) (call : Call) :
    IsRecorded key (calls ++ [call]) ↔ IsRecorded key calls ∨ call.key? = some key := by
  simp [IsRecorded, or_and_right, exists_or]

theorem transactionsOf_eq_nil {calls : List Call} (unrecorded : ¬ IsRecorded key calls) :
    transactionsOf key calls = [] := by
  refine List.filterMap_eq_nil_iff.2 fun call asked => ?_
  cases call with
  | transaction own ns locality =>
    rw [Call.transactionOf?, if_neg fun same => unrecorded ⟨_, asked, congrArg some same⟩]
  | partition | reconcile | clear => rfl

def AreShares (width : Nat) (transactions : List (Int × Locality)) (groups : List Group) : Prop :=
  ∃ full last, Divides width transactions full last ∧
    List.Forall₂ Group.Counts (full ++ [last]) groups

section
variable {width : Nat} {transactions : List (Int × Locality)} {groups later : List Group}

theorem areShares_transaction (positive : 0 < width) {ns : Int} {locality : Locality}
    (takes : Takes (·.transactions < width) (·.recordTransaction ns locality) key [] later) :
    AreShares width [(ns, locality)] later := by
  have first := (Group.Counts.new key).transaction ns locality
  cases takes with
  | newest split => exact absurd split.symm (List.concat_ne_nil _ _)
  | opened =>
    exact ⟨[], _, (divides_nil width).extend positive (ns, locality), .cons first .nil⟩

theorem areShares_partition {partition : PartitionId} {ns : Int} {isEstimate : Bool}
    (takes : Takes (fun _ => True) (·.recordPartition partition ns isEstimate) key [] later) :
    AreShares width [] later := by
  have first := (Group.Counts.new key).partition partition ns isEstimate
  cases takes with
  | newest split => exact absurd split.symm (List.concat_ne_nil _ _)
  | opened => exact ⟨[], [], divides_nil width, .cons first .nil⟩

namespace AreShares

/-- A transaction goes behind the last share, or makes a new one behind a full one. -/
theorem transaction (shares : AreShares width transactions groups) (positive : 0 < width)
    {ns : Int} {locality : Locality}
    (takes : Takes (·.transactions < width) (·.recordTransaction ns locality) key groups later) :
    AreShares width (transactions ++ [(ns, locality)]) later := by
  obtain ⟨full, last, divides, held⟩ := shares
  cases takes with
  | newest split fits =>
    subst split
    obtain ⟨before, counts⟩ := forall₂_concat_iff.1 held
    rw [counts.transactions] at fits
    exact ⟨full, last ++ [(ns, locality)], divides.extend fits (ns, locality),
      forall₂_concat_iff.2 ⟨before, counts.transaction ns locality⟩⟩
  | opened unfit =>
    obtain ⟨earlier, group, rfl, _, counts⟩ := exists_of_forall₂_concat held
    have taken := unfit group (List.getLast?_concat ..)
    rw [counts.transactions, not_lt] at taken
    exact ⟨full ++ [last], [(ns, locality)], divides.open taken positive (ns, locality),
      forall₂_concat_iff.2 ⟨held, (Group.Counts.new key).transaction ns locality⟩⟩

theorem partition (shares : AreShares width transactions groups) {partition : PartitionId}
    {ns : Int} {isEstimate : Bool}
    (takes : Takes (fun _ => True) (·.recordPartition partition ns isEstimate) key groups later) :
    AreShares width transactions later := by
  obtain ⟨full, last, divides, held⟩ := shares
  cases takes with
  | newest split =>
    subst split
    obtain ⟨before, counts⟩ := forall₂_concat_iff.1 held
    exact ⟨full, last, divides,
      forall₂_concat_iff.2 ⟨before, counts.partition partition ns isEstimate⟩⟩
  | opened unfit =>
    obtain ⟨earlier, group, rfl, _, _⟩ := exists_of_forall₂_concat held
    exact absurd trivial (unfit group (List.getLast?_concat ..))

theorem reconcile (shares : AreShares width transactions groups) :
    AreShares width transactions (groups.map Group.reconcile) := by
  obtain ⟨full, last, divides, held⟩ := shares
  refine ⟨full, last, divides, List.forall₂_map_right_iff.2 ?_⟩
  exact held.imp fun _ _ counts => counts.reconcile

end AreShares

end

/-- A sample of a width that has taken these calls since it was last cleared. -/
structure Took (width : Nat) (calls : List Call) (sample : Sample) : Prop where
  cap : sample.cap = width
  absent : ∀ key, ¬ IsRecorded key calls → sample.groupsOf key = []
  shares : ∀ key, IsRecorded key calls →
    AreShares width (transactionsOf key calls) (sample.groupsOf key)
  total : sample.totalTransactions = calls.countP Call.isTransaction

section
variable {width : Nat} {calls : List Call}

theorem took_new (cap : Nat) : Took (max cap 1) [] (new cap) := by
  refine ⟨rfl, fun _ _ => rfl, fun key recorded => ?_, rfl⟩
  obtain ⟨call, asked, _⟩ := recorded
  exact absurd asked List.not_mem_nil

/-- A call of one key is taken by its groups alone. -/
theorem Took.record (took : Took width calls sample) {call : Call} {later : Sample}
    {fit : Group → Prop} {f : Group → Group} (known : call.key? = some key)
    (changes : Changes fit f key sample later) (cap : later.cap = sample.cap)
    (own : AreShares width (transactionsOf key (calls ++ [call])) (later.groupsOf key))
    (added : ∀ group, (f group).transactions = group.transactions + call.isTransaction.toNat) :
    Took width (calls ++ [call]) later := by
  have elsewhere (other : GroupKey) (differs : other ≠ key) :
      IsRecorded other (calls ++ [call]) ↔ IsRecorded other calls := by
    rw [isRecorded_concat, known, Option.some.injEq]
    exact or_iff_left (Ne.symm differs)
  refine ⟨cap.trans took.cap, ?_, ?_, ?_⟩
  · intro other unrecorded
    have differs : other ≠ key := fun same =>
      unrecorded ((isRecorded_concat other calls call).2 (.inr (same ▸ known)))
    rw [changes.others other differs]
    exact took.absent other ((elsewhere other differs).not.1 unrecorded)
  · intro other recorded
    by_cases same : other = key
    · rw [same]
      exact own
    · have silent : call.transactionOf? other = none := by
        cases call with
        | transaction => exact if_neg fun equal => same (equal.symm.trans (Option.some.inj known))
        | partition | reconcile | clear => rfl
      rw [changes.others other same, transactionsOf_concat, silent, Option.toList_none,
        List.append_nil]
      exact took.shares other ((elsewhere other same).1 recorded)
  · rw [changes.total _ added, took.total, List.countP_append, List.countP_singleton]
    cases call.isTransaction with
    | true | false => rfl

theorem Took.transaction (took : Took width calls sample) (positive : 0 < width)
    (key : GroupKey) (ns : Int) (locality : Locality) :
    Took width (calls ++ [.transaction key ns locality])
      (sample.recordTransaction key ns locality).2 := by
  have changes := sample.changes_recordTransaction key ns locality
  rw [took.cap] at changes
  refine took.record rfl changes (sample.cap_recordTransaction key ns locality) ?_ fun group => ?_
  · have own : (Call.transaction key ns locality).transactionOf? key = some (ns, locality) :=
      if_pos rfl
    rw [transactionsOf_concat, own]
    by_cases earlier : IsRecorded key calls
    · exact (took.shares key earlier).transaction positive changes.own
    · have first := changes.own
      rw [took.absent key earlier] at first
      rw [transactionsOf_eq_nil earlier]
      exact areShares_transaction positive first
  · cases locality with
    | near | far => rfl

theorem Took.partition (took : Took width calls sample) (key : GroupKey)
    (partition : PartitionId) (ns : Int) (isEstimate : Bool) :
    Took width (calls ++ [.partition key partition ns isEstimate])
      (sample.recordPartition key partition ns isEstimate).2 := by
  have changes := sample.changes_recordPartition key partition ns isEstimate
  refine took.record rfl changes (sample.cap_recordPartition key partition ns isEstimate) ?_
    fun group => rfl
  have same : transactionsOf key (calls ++ [.partition key partition ns isEstimate]) =
      transactionsOf key calls := (transactionsOf_concat key calls _).trans (List.append_nil _)
  rw [same]
  by_cases earlier : IsRecorded key calls
  · exact (took.shares key earlier).partition changes.own
  · have first := changes.own
    rw [took.absent key earlier] at first
    rw [transactionsOf_eq_nil earlier]
    exact areShares_partition first

theorem groupsOf_reconcile (sample : Sample) (key : GroupKey) :
    sample.reconcile.groupsOf key = (sample.groupsOf key).map Group.reconcile := by
  unfold groupsOf
  rw [reconcile, Array.toList_map, List.filter_map]
  rfl

theorem Took.reconcile (took : Took width calls sample) :
    Took width (calls ++ [.reconcile]) sample.reconcile := by
  have same (key : GroupKey) : IsRecorded key (calls ++ [.reconcile]) ↔ IsRecorded key calls := by
    rw [isRecorded_concat]
    exact or_iff_left nofun
  refine ⟨took.cap, fun key unrecorded => ?_, fun key recorded => ?_, ?_⟩
  · rw [groupsOf_reconcile, took.absent key ((same key).not.1 unrecorded)]
    rfl
  · have none : transactionsOf key (calls ++ [.reconcile]) = transactionsOf key calls :=
      (transactionsOf_concat key calls _).trans (List.append_nil _)
    rw [groupsOf_reconcile, none]
    exact (took.shares key ((same key).1 recorded)).reconcile
  · rw [totalTransactions_eq_sum, Sample.reconcile, Array.toList_map, List.map_map,
      List.countP_append]
    exact (totalTransactions_eq_sum sample).symm.trans took.total

theorem took_after (cap : Nat) (calls : List Call) :
    Took (max cap 1) (sinceClear calls) (after cap calls) := by
  have positive : 0 < max cap 1 := Nat.lt_of_lt_of_le Nat.one_pos (Nat.le_max_right cap 1)
  induction calls using List.reverseRecOn with
  | nil => exact took_new cap
  | append_singleton calls call ih =>
    rw [take_after]
    cases call with
    | transaction key ns locality =>
      rw [sinceClear_concat calls (.transaction key ns locality) nofun]
      exact ih.transaction positive key ns locality
    | partition key partition ns isEstimate =>
      rw [sinceClear_concat calls (.partition key partition ns isEstimate) nofun]
      exact ih.partition key partition ns isEstimate
    | reconcile =>
      rw [sinceClear_concat calls .reconcile nofun]
      exact ih.reconcile
    | clear =>
      have new : (after cap calls).clear = Sample.new cap := by
        rw [clear, ih.cap]
        rfl
      rw [sinceClear_concat_clear, take, new]
      exact took_new cap

/-- A call opens groups behind those there are, unless it clears the sample. -/
theorem subgroups_prefix_take (sample : Sample) {call : Call} (goesOn : call ≠ .clear)
    (key : GroupKey) : sample.subgroups key <+: (sample.take call).subgroups key := by
  cases call with
  | transaction own ns locality =>
    change _ <+: (sample.groupForTransaction own).2.subgroups key
    unfold groupForTransaction
    split
    · split
      · exact List.prefix_refl _
      · exact sample.subgroups_prefix_openGroup own key
    · exact sample.subgroups_prefix_openGroup own key
  | partition own partition ns isEstimate =>
    change _ <+: (sample.groupForPartition own).2.subgroups key
    unfold groupForPartition
    split
    · exact List.prefix_refl _
    · exact sample.subgroups_prefix_openGroup own key
  | reconcile => exact List.prefix_refl _
  | clear => exact absurd rfl goesOn

end

/-- The groups are listed by key, and by whether they touch a single partition. -/
structure IsListed (sample : Sample) : Prop where
  /-- Every group is in the list of one key, its own. -/
  keyed : ∀ id < sample.size, ∃! key, id ∈ sample.subgroups key
  own : ∀ key, ∀ id ∈ sample.subgroups key, ∃ group, sample.group? id = some group ∧ group.key = key
  opened : ∀ key, (sample.subgroups key).Pairwise (· < ·)
  singles : sample.singleIds.Pairwise (· < ·)
  multis : sample.multiIds.Pairwise (· < ·)
  apart : sample.singleIds.Disjoint sample.multiIds
  together : ∀ id, id ∈ sample.singleIds ∨ id ∈ sample.multiIds ↔ id < sample.size
  byScope : ∀ id group, sample.group? id = some group →
    (id ∈ sample.singleIds ↔ ∃ partition, group.key.scope = .single partition) ∧
      (id ∈ sample.multiIds ↔ group.key.scope = .every)

theorem group?_of_lt (inside : id < sample.size) : ∃ group, sample.group? id = some group :=
  ⟨sample.groups[id], Array.getElem?_eq_getElem inside⟩

theorem lt_size_of_group? {group : Group} (found : sample.group? id = some group) :
    id < sample.size := (Array.getElem?_eq_some_iff.1 found).1

theorem isListed (sample : Sample) : sample.IsListed where
  keyed id inside := by
    obtain ⟨group, found⟩ := group?_of_lt inside
    refine ⟨group.key, mem_subgroups.2 ⟨group, found, rfl⟩, fun key listed => ?_⟩
    obtain ⟨own, here, same⟩ := mem_subgroups.1 listed
    rw [← same, Option.some.inj (found.symm.trans here)]
  own key id listed := mem_subgroups.1 listed
  opened key := sample.pairwise_subgroups key
  singles := by
    rw [singleIds, sample.listed_single]
    exact pairwise_idsWhere _ _
  multis := by
    rw [multiIds, sample.listed_multi]
    exact pairwise_idsWhere _ _
  apart id single multi := by
    obtain ⟨group, found, yes⟩ := mem_singleIds.1 single
    obtain ⟨other, here, no⟩ := mem_multiIds.1 multi
    rw [Option.some.inj (found.symm.trans here), no] at yes
    cases yes
  together id := by
    rw [mem_singleIds, mem_multiIds]
    constructor
    · rintro (⟨group, found, _⟩ | ⟨group, found, _⟩)
      · exact lt_size_of_group? found
      · exact lt_size_of_group? found
    · intro inside
      obtain ⟨group, found⟩ := group?_of_lt inside
      cases kind : group.key.isSingle with
      | true => exact .inl ⟨group, found, kind⟩
      | false => exact .inr ⟨group, found, kind⟩
  byScope id group found := by
    rw [mem_singleIds, mem_multiIds]
    simp only [found, Option.some.injEq, exists_eq_left', GroupKey.isSingle]
    cases group.key.scope with
    | single partition => simp
    | every => simp

namespace AreShares

variable {width : Nat} {transactions : List (Int × Locality)} {groups : List Group}

/-- The indices of the groups among which a key's transactions are divided. -/
theorem subgroups (shares : AreShares width transactions (sample.groupsOf key)) : ∃ full last,
    Divides width transactions full last ∧
      List.Forall₂ (fun share id => ∃ group ∈ sample.group? id, group.Counts share)
        (full ++ [last]) (sample.subgroups key) := by
  obtain ⟨full, last, divides, held⟩ := shares
  refine ⟨full, last, divides, ?_⟩
  have listed : List.Forall₂ (fun share (entry : Option Group) => ∃ group ∈ entry,
      group.Counts share) (full ++ [last]) ((sample.subgroups key).map sample.group?) := by
    rw [map_subgroups, List.forall₂_map_right_iff]
    exact held.imp fun _ group counts => ⟨group, rfl, counts⟩
  exact List.forall₂_map_right_iff.1 listed

theorem transactions_eq (shares : AreShares width transactions groups) :
    ∀ group ∈ groups, group.transactions = group.near.size + group.far.size := by
  obtain ⟨full, last, _, held⟩ := shares
  have counted : List.Forall₂ (fun (group : Group) _ =>
      group.transactions = group.near.size + group.far.size ∧ True) groups (full ++ [last]) :=
    held.flip.imp fun _ _ counts => ⟨counts.transactions_eq, trivial⟩
  exact ((List.forall₂_and_left _ _).1 counted).1

end AreShares

/-- After any calls the groups of a sample are listed by key and by scope, and each key that
something was recorded of since the last clearing has its transactions divided among its groups,
in order of arrival, all but the newest group full. -/
theorem represented_after (cap : Nat) (calls : List Call) :
    let sample := after cap calls
    let recent := sinceClear calls
    let width := max cap 1
    sample.IsListed ∧
      (∀ key, IsRecorded key recent →
        (sample.subgroups key).length = max 1 ((transactionsOf key recent).length ⌈/⌉ width) ∧
          ∃ full last, Divides width (transactionsOf key recent) full last ∧
            List.Forall₂ (fun share id => ∃ group ∈ sample.group? id, group.Counts share)
              (full ++ [last]) (sample.subgroups key)) ∧
      (∀ key, ¬ IsRecorded key recent → sample.subgroups key = []) ∧
      (∀ call ≠ .clear, ∀ key, sample.subgroups key <+: (sample.take call).subgroups key) ∧
      (∀ id, ∀ group ∈ sample.group? id,
        group.transactions = group.near.size + group.far.size) ∧
      sample.totalTransactions = recent.countP Call.isTransaction := by
  intro sample recent width
  have positive : 0 < width := Nat.lt_of_lt_of_le Nat.one_pos (Nat.le_max_right cap 1)
  have took : Took width recent sample := took_after cap calls
  refine ⟨sample.isListed, fun key recorded => ?_, fun key unrecorded => ?_,
    fun call goesOn key => sample.subgroups_prefix_take goesOn key, fun id group found => ?_,
    took.total⟩
  · obtain ⟨full, last, divides, held⟩ := (took.shares key recorded).subgroups
    refine ⟨?_, full, last, divides, held⟩
    rw [← held.length_eq, divides.length_eq positive]
  · have listed := sample.map_subgroups key
    rw [took.absent key unrecorded] at listed
    exact List.map_eq_nil_iff.1 listed
  · have member : group ∈ sample.groupsOf group.key :=
      List.mem_filter.2 ⟨Array.mem_toList_iff.2 (Array.mem_of_getElem? found), by simp⟩
    by_cases recorded : IsRecorded group.key recent
    · exact (took.shares group.key recorded).transactions_eq group member
    · rw [took.absent group.key recorded] at member
      exact absurd member List.not_mem_nil

end Sample

end Rebalance
