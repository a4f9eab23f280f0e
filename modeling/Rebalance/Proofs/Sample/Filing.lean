import Mathlib.Data.List.Nodup
import Rebalance.Sample.Basic

/-!
A sample below its cap is a file with one group for each key: whatever a key is given goes into
its group, which is opened on first use. Which key was used first only decides the order of the
groups.
-/

namespace Rebalance

theorem modify_idxOf {ι β : Type} [DecidableEq ι] {keys : List ι} (distinct : keys.Nodup)
    (file : ι → β) (key : ι) (f : β → β) :
    (keys.map file).modify (keys.idxOf key) f =
      keys.map (Function.update file key (f (file key))) := by
  induction keys with
  | nil => rfl
  | cons first keys ih =>
    rw [List.nodup_cons] at distinct
    by_cases here : first = key
    · subst here
      have others : keys.map file = keys.map (Function.update file first (f (file first))) :=
        List.map_congr_left fun other member => by
          have differs : other ≠ first := fun same => distinct.1 (same ▸ member)
          rw [Function.update_of_ne differs]
      rw [List.idxOf_cons_self, List.map_cons, List.map_cons, List.modify_zero_cons,
        Function.update_self, others]
    · rw [List.idxOf_cons_ne _ here, List.map_cons, List.map_cons, List.modify_succ_cons,
        Function.update_of_ne here, ih distinct.2]

namespace Sample

variable {sample : Sample} {key : GroupKey} {id : GroupId}

theorem pairwise_subgroups (sample : Sample) (key : GroupKey) :
    (sample.subgroups key).Pairwise (· < ·) := by
  rw [subgroups, sample.listed_byKey]
  exact pairwise_idsWhere _ _

/-- The newest group of a key is the last of its list, and so has the greatest index. -/
theorem newestId?_eq_some_iff : sample.newestId? key = some id ↔
    id ∈ sample.subgroups key ∧ ∀ other ∈ sample.subgroups key, other ≤ id := by
  have ascending := sample.pairwise_subgroups key
  rw [newestId?_eq]
  constructor
  · intro found
    obtain ⟨earlier, split⟩ := List.getLast?_eq_some_iff.1 found
    rw [split] at ascending ⊢
    refine ⟨List.mem_concat_self, fun other member => ?_⟩
    rcases List.mem_append.1 member with old | new
    · exact Nat.le_of_lt ((List.pairwise_append.1 ascending).2.2 other old id List.mem_cons_self)
    · exact Nat.le_of_eq (List.mem_singleton.1 new)
  · rintro ⟨member, greatest⟩
    obtain ⟨earlier, last, split⟩ :=
      (List.eq_nil_or_concat' _).resolve_left (List.ne_nil_of_mem member)
    rw [split] at ascending member greatest ⊢
    have below := greatest last List.mem_concat_self
    rw [List.getLast?_concat]
    rcases List.mem_append.1 member with old | new
    · have above := (List.pairwise_append.1 ascending).2.2 id old last List.mem_cons_self
      exact absurd above (Nat.not_lt.2 below)
    · exact congrArg some (List.mem_singleton.1 new).symm

end Sample

/-- A sample with one group for each of these keys, and what each key's group is. A key without
a group has nothing in its file. -/
structure Sample.Files (sample : Sample) (keys : List GroupKey) (file : GroupKey → Group) :
    Prop where
  distinct : keys.Nodup
  keyed : ∀ key, (file key).key = key
  fresh : ∀ key, key ∉ keys → file key = Group.new key
  listed : sample.groups.toList = keys.map file

namespace Sample.Files

variable {sample : Sample} {keys : List GroupKey} {file : GroupKey → Group}

theorem new (cap : Nat) : (Sample.new cap).Files [] Group.new :=
  ⟨.nil, fun _ => rfl, fun _ _ => rfl, rfl⟩

theorem group?_eq (files : sample.Files keys file) (id : GroupId) :
    sample.group? id = (keys[id]?).map file := by
  rw [group?, ← Array.getElem?_toList, files.listed, List.getElem?_map]

theorem mem_subgroups_iff (files : sample.Files keys file) {key : GroupKey} {id : GroupId} :
    id ∈ sample.subgroups key ↔ keys[id]? = some key := by
  rw [mem_subgroups, files.group?_eq]
  cases keys[id]? with
  | none => simp
  | some other => simp [files.keyed]

theorem newestId?_eq (files : sample.Files keys file) (key : GroupKey) :
    sample.newestId? key = if key ∈ keys then some (keys.idxOf key) else none := by
  split
  · next present =>
    refine newestId?_eq_some_iff.2 ⟨?_, fun other listed => ?_⟩
    · exact files.mem_subgroups_iff.2 (List.getElem?_idxOf present)
    · rw [files.mem_subgroups_iff] at listed
      obtain ⟨inside, here⟩ := List.getElem?_eq_some_iff.1 listed
      exact Nat.le_of_eq (here ▸ files.distinct.idxOf_getElem other inside).symm
  · next absent =>
    have unlisted : sample.subgroups key = [] :=
      List.eq_nil_iff_forall_not_mem.2 fun id listed =>
        absent (List.mem_of_getElem? (files.mem_subgroups_iff.1 listed))
    rw [Sample.newestId?_eq, unlisted]
    rfl

theorem openGroup (files : sample.Files keys file) {key : GroupKey} (absent : key ∉ keys) :
    (sample.openGroup key).1 = (keys ++ [key]).idxOf key ∧
      (sample.openGroup key).2.Files (keys ++ [key]) file := by
  constructor
  · have size : sample.groups.size = keys.length := by
      rw [← Array.length_toList, files.listed, List.length_map]
    rw [List.idxOf_append_of_notMem absent, List.idxOf_cons_self, Nat.add_zero]
    exact size
  · constructor
    · rw [← List.concat_eq_append]
      exact files.distinct.concat absent
    · exact files.keyed
    · intro other unlisted
      exact files.fresh other fun member => unlisted (List.mem_append_left _ member)
    · rw [List.map_append, ← files.listed, List.map_singleton, files.fresh key absent]
      exact Array.toList_push

/-- What is done to the group of a key with one changes that key's file. -/
theorem modifyGroup (files : sample.Files keys file) {key : GroupKey} (present : key ∈ keys)
    {f : Group → Group} (keeps : ∀ group, (f group).key = group.key) :
    (sample.modifyGroup (keys.idxOf key) f keeps).Files keys
      (Function.update file key (f (file key))) := by
  constructor
  · exact files.distinct
  · intro other
    by_cases same : other = key
    · rw [same, Function.update_self, keeps, files.keyed]
    · rw [Function.update_of_ne same, files.keyed]
  · intro other unlisted
    have differs : other ≠ key := fun same => unlisted (same ▸ present)
    rw [Function.update_of_ne differs, files.fresh other unlisted]
  · rw [← modify_idxOf files.distinct, ← files.listed]
    exact Array.toList_modify

def withKey (keys : List GroupKey) (key : GroupKey) : List GroupKey :=
  if key ∈ keys then keys else keys ++ [key]

theorem mem_withKey {key other : GroupKey} :
    other ∈ withKey keys key ↔ other ∈ keys ∨ other = key := by
  unfold withKey
  split
  · next present => exact ⟨.inl, fun either => either.elim id fun same => same ▸ present⟩
  · rw [List.mem_append, List.mem_singleton]

theorem groupForPartition (files : sample.Files keys file) (key : GroupKey) :
    (sample.groupForPartition key).1 = (withKey keys key).idxOf key ∧
      (sample.groupForPartition key).2.Files (withKey keys key) file := by
  unfold Sample.groupForPartition withKey
  rw [files.newestId?_eq key]
  by_cases present : key ∈ keys
  · rw [if_pos present, if_pos present]
    exact ⟨rfl, files⟩
  · rw [if_neg present, if_neg present]
    exact files.openGroup present

/-- With room in a key's group, the next transaction goes there as well. -/
theorem groupForTransaction (files : sample.Files keys file) {key : GroupKey}
    (room : (file key).transactions < sample.cap) :
    sample.groupForTransaction key = sample.groupForPartition key := by
  unfold Sample.groupForTransaction Sample.groupForPartition
  rw [files.newestId?_eq key]
  by_cases present : key ∈ keys
  · have inside : keys.idxOf key < keys.length := List.idxOf_lt_length_of_mem present
    have group : sample.groups[keys.idxOf key]? = some (file key) := by
      have found := files.group?_eq (keys.idxOf key)
      rwa [List.getElem?_idxOf present] at found
    rw [if_pos present]
    simp only [group, Option.any_some, room, decide_true, if_true]
  · rw [if_neg present]

/-- What is done to the group that a key has or gets changes that key's file. -/
theorem modifySlot (files : sample.Files keys file) (key : GroupKey) {f : Group → Group}
    (keeps : ∀ group, (f group).key = group.key) :
    ((sample.groupForPartition key).2.modifyGroup (sample.groupForPartition key).1 f keeps).Files
      (withKey keys key) (Function.update file key (f (file key))) := by
  obtain ⟨index, slot⟩ := files.groupForPartition key
  rw [index]
  exact slot.modifyGroup (mem_withKey.2 (.inr rfl)) keeps

theorem recordTransaction (files : sample.Files keys file) {key : GroupKey} (ns : Int)
    (locality : Locality) (room : (file key).transactions < sample.cap) :
    (sample.recordTransaction key ns locality).2.Files (withKey keys key)
      (Function.update file key ((file key).recordTransaction ns locality)) := by
  rw [Sample.recordTransaction, files.groupForTransaction room]
  exact files.modifySlot key fun group => group.key_recordTransaction ns locality

theorem recordPartition (files : sample.Files keys file) (key : GroupKey)
    (partition : PartitionId) (ns : Int) (isEstimate : Bool) :
    (sample.recordPartition key partition ns isEstimate).2.Files (withKey keys key)
      (Function.update file key ((file key).recordPartition partition ns isEstimate)) :=
  files.modifySlot key (f := (·.recordPartition partition ns isEstimate)) fun _ => rfl

end Sample.Files

end Rebalance
