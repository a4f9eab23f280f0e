import Rebalance.Scalar
import Rebalance.Sample.Group

/-!
One epoch's transactions, gathered into groups of one key. A key's newest group takes
transactions up to a cap; the next transaction then opens another group of the same key,
and groups are never merged.
-/

namespace Rebalance

abbrev GroupId := Nat

def idsWhere (groups : Array Group) (p : Group → Bool) : List GroupId :=
  (List.range groups.size).filter fun id => (groups[id]?).any p

theorem mem_idsWhere {groups : Array Group} {p : Group → Bool} {id : GroupId} :
    id ∈ idsWhere groups p ↔ ∃ group, groups[id]? = some group ∧ p group = true := by
  unfold idsWhere
  rw [List.mem_filter, List.mem_range, Option.any_eq_true]
  refine and_iff_right_of_imp ?_
  rintro ⟨group, found, _⟩
  exact (Array.getElem?_eq_some_iff.1 found).1

theorem pairwise_idsWhere (groups : Array Group) (p : Group → Bool) :
    (idsWhere groups p).Pairwise (· < ·) := List.pairwise_lt_range.filter _

theorem idsWhere_push (groups : Array Group) (group : Group) (p : Group → Bool) :
    idsWhere (groups.push group) p =
      idsWhere groups p ++ if p group then [groups.size] else [] := by
  unfold idsWhere
  rw [Array.size_push, List.range_succ, List.filter_append, List.filter_cons, List.filter_nil,
    Array.getElem?_push_size]
  refine congrArg (· ++ _) (List.filter_congr fun id inside => ?_)
  rw [Array.getElem?_push, if_neg (Nat.ne_of_lt (List.mem_range.1 inside))]

theorem idsWhere_modify (groups : Array Group) (id : GroupId) {f : Group → Group}
    {p : Group → Bool} (keeps : ∀ group, p (f group) = p group) :
    idsWhere (groups.modify id f) p = idsWhere groups p := by
  unfold idsWhere
  rw [Array.size_modify]
  refine List.filter_congr fun other _ => ?_
  rw [Array.getElem?_modify]
  split
  · cases groups[other]? with
    | none => rfl
    | some group => exact keeps group
  · rfl

theorem idsWhere_map (groups : Array Group) {f : Group → Group} {p : Group → Bool}
    (keeps : ∀ group, p (f group) = p group) : idsWhere (groups.map f) p = idsWhere groups p := by
  unfold idsWhere
  rw [Array.size_map]
  refine List.filter_congr fun id _ => ?_
  rw [Array.getElem?_map]
  cases groups[id]? with
  | none => rfl
  | some group => exact keeps group

def listUnder (key : GroupKey) (id : GroupId) :
    List (GroupKey × Array GroupId) → List (GroupKey × Array GroupId)
  | [] => [(key, #[id])]
  | (other, ids) :: rest =>
    if other = key then (other, ids.push id) :: rest else (other, ids) :: listUnder key id rest

def listedUnder (key : GroupKey) (entries : List (GroupKey × Array GroupId)) : Array GroupId :=
  (entries.lookup key).getD #[]

theorem listedUnder_cons (key other : GroupKey) (ids : Array GroupId)
    (rest : List (GroupKey × Array GroupId)) :
    listedUnder key ((other, ids) :: rest) = if other = key then ids else listedUnder key rest := by
  unfold listedUnder
  by_cases here : other = key
  · simp [here]
  · rw [List.lookup_cons, beq_false_of_ne (Ne.symm here), if_neg here]

theorem listedUnder_listUnder (key own : GroupKey) (id : GroupId)
    (entries : List (GroupKey × Array GroupId)) :
    (listedUnder key (listUnder own id entries)).toList =
      (listedUnder key entries).toList ++ if own = key then [id] else [] := by
  induction entries with
  | nil =>
    rw [listUnder, listedUnder_cons]
    split
    · rfl
    · rfl
  | cons entry rest ih =>
    obtain ⟨other, ids⟩ := entry
    rw [listUnder, listedUnder_cons]
    by_cases here : other = own
    · rw [if_pos here, listedUnder_cons, here]
      split
      · exact Array.toList_push
      · exact (List.append_nil _).symm
    · rw [if_neg here, listedUnder_cons]
      by_cases found : other = key
      · rw [if_pos found, if_pos found, if_neg fun same => here (found.trans same.symm),
          List.append_nil]
      · rw [if_neg found, if_neg found, ih]

/-- Groups, with their indices listed by key and by scope. -/
structure Sample where
  cap : Nat
  groups : Array Group
  byKey : List (GroupKey × Array GroupId)
  single : Array GroupId
  multi : Array GroupId
  listed_byKey : ∀ key, (listedUnder key byKey).toList = idsWhere groups (·.key = key)
  listed_single : single.toList = idsWhere groups (·.key.isSingle)
  listed_multi : multi.toList = idsWhere groups (!·.key.isSingle)
deriving DecidableEq

namespace Sample

def defaultCap : Nat := 1000

def ofCap (cap : Nat) : Sample where
  cap
  groups := #[]
  byKey := []
  single := #[]
  multi := #[]
  listed_byKey _ := rfl
  listed_single := rfl
  listed_multi := rfl

instance : Inhabited Sample := ⟨ofCap defaultCap⟩

def new (cap : Nat) : Sample := ofCap (max cap 1)

def size (sample : Sample) : Nat := sample.groups.size

def isEmpty (sample : Sample) : Bool := sample.groups.isEmpty

def clear (sample : Sample) : Sample := ofCap sample.cap

def group? (sample : Sample) (id : GroupId) : Option Group := sample.groups[id]?

def subgroups (sample : Sample) (key : GroupKey) : List GroupId :=
  (listedUnder key sample.byKey).toList

def singleIds (sample : Sample) : List GroupId := sample.single.toList

def multiIds (sample : Sample) : List GroupId := sample.multi.toList

def newestId? (sample : Sample) (key : GroupKey) : Option GroupId :=
  (listedUnder key sample.byKey).back?

def newest? (sample : Sample) (key : GroupKey) : Option Group :=
  (sample.newestId? key).bind sample.group?

section
variable {sample : Sample} {key : GroupKey} {id : GroupId}

theorem newestId?_eq (sample : Sample) (key : GroupKey) :
    sample.newestId? key = (sample.subgroups key).getLast? := (Array.getLast?_toList _).symm

theorem mem_subgroups :
    id ∈ sample.subgroups key ↔ ∃ group, sample.group? id = some group ∧ group.key = key := by
  rw [subgroups, sample.listed_byKey, mem_idsWhere]
  simp only [decide_eq_true_eq]
  rfl

theorem mem_singleIds : id ∈ sample.singleIds ↔
    ∃ group, sample.group? id = some group ∧ group.key.isSingle = true := by
  rw [singleIds, sample.listed_single, mem_idsWhere]
  rfl

theorem mem_multiIds : id ∈ sample.multiIds ↔
    ∃ group, sample.group? id = some group ∧ group.key.isSingle = false := by
  rw [multiIds, sample.listed_multi, mem_idsWhere]
  simp only [Bool.not_eq_true']
  rfl

end

def totalTransactions (sample : Sample) : Nat :=
  sample.groups.foldl (fun total group => total + group.transactions) 0

/-- The share of groups that touch a single partition; zero for an empty sample. -/
def singleShare {α : Type} [Scalar α] (sample : Sample) : α :=
  if sample.isEmpty then Scalar.zero
  else Scalar.ofCount sample.singleIds.length / Scalar.ofCount sample.size

def openGroup (sample : Sample) (key : GroupKey) : GroupId × Sample :=
  (sample.size,
    { sample with
      groups := sample.groups.push (Group.new key)
      byKey := listUnder key sample.size sample.byKey
      single := if key.isSingle then sample.single.push sample.size else sample.single
      multi := if key.isSingle then sample.multi else sample.multi.push sample.size
      listed_byKey := fun other => by
        rw [listedUnder_listUnder, sample.listed_byKey, idsWhere_push]
        simp only [decide_eq_true_eq]
        rfl
      listed_single := by
        rw [idsWhere_push, ← sample.listed_single, Group.new]
        cases key.isSingle with
        | true => exact Array.toList_push
        | false => exact (List.append_nil _).symm
      listed_multi := by
        rw [idsWhere_push, ← sample.listed_multi, Group.new]
        cases key.isSingle with
        | true => exact (List.append_nil _).symm
        | false => exact Array.toList_push })

def modifyGroup (sample : Sample) (id : GroupId) (f : Group → Group)
    (keeps : ∀ group, (f group).key = group.key) : Sample :=
  { sample with
    groups := sample.groups.modify id f
    listed_byKey := fun key => by
      rw [idsWhere_modify _ _ fun group => by rw [keeps]]
      exact sample.listed_byKey key
    listed_single := by
      rw [idsWhere_modify _ _ fun group => by rw [keeps]]
      exact sample.listed_single
    listed_multi := by
      rw [idsWhere_modify _ _ fun group => by rw [keeps]]
      exact sample.listed_multi }

def groupForTransaction (sample : Sample) (key : GroupKey) : GroupId × Sample :=
  match sample.newestId? key with
  | some id =>
    if (sample.groups[id]?).any (·.transactions < sample.cap) then (id, sample)
    else sample.openGroup key
  | none => sample.openGroup key

/-- The group that takes the key's next partition latency: its newest, however full. -/
def groupForPartition (sample : Sample) (key : GroupKey) : GroupId × Sample :=
  match sample.newestId? key with
  | some id => (id, sample)
  | none => sample.openGroup key

def recordTransaction (sample : Sample) (key : GroupKey) (ns : Int) (locality : Locality) :
    GroupId × Sample :=
  let (id, sample) := sample.groupForTransaction key
  (id, sample.modifyGroup id (·.recordTransaction ns locality)
    fun group => group.key_recordTransaction ns locality)

def recordPartition (sample : Sample) (key : GroupKey) (partition : PartitionId) (ns : Int)
    (isEstimate : Bool) : GroupId × Sample :=
  let (id, sample) := sample.groupForPartition key
  (id, sample.modifyGroup id (·.recordPartition partition ns isEstimate) fun _ => rfl)

theorem cap_recordTransaction (sample : Sample) (key : GroupKey) (ns : Int) (locality : Locality) :
    (sample.recordTransaction key ns locality).2.cap = sample.cap := by
  have slot : (sample.groupForTransaction key).2.cap = sample.cap := by
    unfold groupForTransaction
    split
    · split
      · rfl
      · rfl
    · rfl
  exact slot

theorem cap_recordPartition (sample : Sample) (key : GroupKey) (partition : PartitionId)
    (ns : Int) (isEstimate : Bool) :
    (sample.recordPartition key partition ns isEstimate).2.cap = sample.cap := by
  have slot : (sample.groupForPartition key).2.cap = sample.cap := by
    unfold groupForPartition
    split
    · rfl
    · rfl
  exact slot

def reconcile (sample : Sample) : Sample :=
  { sample with
    groups := sample.groups.map Group.reconcile
    listed_byKey := fun key => (sample.listed_byKey key).trans
      (idsWhere_map sample.groups (f := Group.reconcile) fun _ => rfl).symm
    listed_single := sample.listed_single.trans
      (idsWhere_map sample.groups (f := Group.reconcile) fun _ => rfl).symm
    listed_multi := sample.listed_multi.trans
      (idsWhere_map sample.groups (f := Group.reconcile) fun _ => rfl).symm }

end Sample

end Rebalance
