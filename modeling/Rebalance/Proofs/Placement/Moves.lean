import Mathlib.Data.List.Dedup
import Mathlib.Data.List.Induction
import Rebalance.Proofs.Placement.Hosting

/-!
Placements built by edits, and the moves from one to another. Every view of a built placement
shows a partition where it was inserted last, and the moves to another placement are what the two
differ in: carried out they lead there, and their number is a distance.
-/

namespace Rebalance.Placement

inductive Edit
  | addHost (host : HostId)
  | insert (host : HostId) (partition : PartitionId)
deriving DecidableEq, Inhabited

namespace Edit

def host : Edit → HostId
  | .addHost host => host
  | .insert host _ => host

def partition? : Edit → Option PartitionId
  | .addHost _ => none
  | .insert _ partition => some partition

end Edit

def edit (placement : Placement) : Edit → Placement
  | .addHost host => placement.addHost host
  | .insert host partition => placement.insert host partition

def edited (placement : Placement) (edits : List Edit) : Placement := edits.foldl edit placement

def built (edits : List Edit) : Placement := edited .empty edits

def inserted (edits : List Edit) : List PartitionId := edits.filterMap Edit.partition?

def lastHost (edits : List Edit) (partition : PartitionId) : Option HostId :=
  ((edits.filter (·.partition? = some partition)).getLast?).map Edit.host

/-- The insertions that carry out moves; a move without a target needs none. -/
def reinsertions (moves : List Relocation) : List Edit :=
  moves.filterMap fun move => move.target.map fun host => .insert host move.partition

/-- Every view of the placement shows the same host of each partition, or none. -/
structure Shows (placement : Placement) (host? : PartitionId → Option HostId) : Prop where
  pairs : ∀ host partition, (host, partition) ∈ placement.pairs ↔ host? partition = some host
  hostOf : ∀ partition, placement.hostOf partition = host? partition
  byPartition : ∀ partition, placement.byPartition.get? partition = host? partition

section
variable {placement : Placement} {host known : HostId} {partition : PartitionId}

theorem IsSingle.shows (single : placement.IsSingle) : placement.Shows placement.hostOf where
  pairs host partition := single.hostOf_eq_some_iff.symm
  hostOf _ := rfl
  byPartition partition := by
    apply Option.ext
    intro host
    rw [single.byPartition_eq_some_iff, single.hostOf_eq_some_iff]

theorem IsSingle.addHost (single : placement.IsSingle) (host : HostId) :
    (placement.addHost host).IsSingle := fun _ listed _ listedToo =>
  single _ (mem_pairs_addHost.1 listed) _ (mem_pairs_addHost.1 listedToo)

theorem IsSingle.hostOf_addHost (single : placement.IsSingle) (host : HostId)
    (partition : PartitionId) :
    (placement.addHost host).hostOf partition = placement.hostOf partition := by
  apply Option.ext
  intro known
  rw [(single.addHost host).hostOf_eq_some_iff, mem_pairs_addHost, single.hostOf_eq_some_iff]

theorem partitionCount_eq (placement : Placement) :
    placement.partitionCount = placement.pairs.length := by
  rw [partitionCount, pairs, IdMap.values, ← List.foldl_map, ← List.sum_eq_foldl,
    List.length_flatMap, List.map_map]
  simp only [Function.comp_def, List.length_map, IdSet.size]

theorem nodup_pairs (placement : Placement) : placement.pairs.Nodup := by
  rw [pairs, List.nodup_flatMap]
  constructor
  · intro entry _
    exact entry.2.nodup.map fun _ _ same => congrArg Prod.snd same
  · refine placement.hosts.ascending.imp fun {first second} below pair here there => ?_
    obtain ⟨_, _, rfl⟩ := List.mem_map.1 here
    obtain ⟨_, _, same⟩ := List.mem_map.1 there
    exact Nat.ne_of_lt below (congrArg Prod.fst same).symm

theorem IsSingle.nodup_partitions (single : placement.IsSingle) :
    (placement.pairs.map (·.2)).Nodup :=
  placement.nodup_pairs.map_on fun pair here other there => single pair here other there

end

section
variable {placement : Placement} {host : HostId} {partition : PartitionId} {edits : List Edit}

theorem IsSingle.edit (single : placement.IsSingle) (edit : Edit) :
    (placement.edit edit).IsSingle := by
  cases edit with
  | addHost host => exact single.addHost host
  | insert host partition => exact single.insert host partition

theorem IsSingle.hostOf_edit (single : placement.IsSingle) (edit : Edit)
    (partition : PartitionId) :
    (placement.edit edit).hostOf partition =
      if edit.partition? = some partition then some edit.host
      else placement.hostOf partition := by
  cases edit with
  | addHost host => exact single.hostOf_addHost host partition
  | insert host inserted =>
    refine (single.hostOf_insert host inserted partition).trans (if_congr ?_ rfl rfl)
    rw [Edit.partition?, Option.some.injEq, eq_comm]

theorem mem_hostIds_edit {edit : Edit} :
    host ∈ (placement.edit edit).hostIds ↔ host = edit.host ∨ host ∈ placement.hostIds := by
  cases edit with
  | addHost known => exact mem_hostIds_addHost
  | insert known partition => exact mem_hostIds_insert

theorem edited_append (placement : Placement) (edits later : List Edit) :
    placement.edited (edits ++ later) = (placement.edited edits).edited later :=
  List.foldl_append

theorem IsSingle.edited (single : placement.IsSingle) (edits : List Edit) :
    (placement.edited edits).IsSingle :=
  List.foldlRecOn edits Placement.edit single fun _ single edit _ => single.edit edit

theorem mem_hostIds_edited (known : host ∈ placement.hostIds) (edits : List Edit) :
    host ∈ (placement.edited edits).hostIds :=
  List.foldlRecOn (motive := fun placement => host ∈ placement.hostIds) edits Placement.edit known
    fun _ known _ _ => mem_hostIds_edit.2 (.inr known)

theorem lastHost_concat (edits : List Edit) (edit : Edit) (partition : PartitionId) :
    lastHost (edits ++ [edit]) partition =
      if edit.partition? = some partition then some edit.host else lastHost edits partition := by
  unfold lastHost
  rw [List.filter_append, List.filter_singleton]
  by_cases here : edit.partition? = some partition
  · simp [here]
  · simp [here]

theorem isSome_lastHost : (lastHost edits partition).isSome ↔ partition ∈ inserted edits := by
  rw [lastHost, Option.isSome_map, List.getLast?_isSome, ne_eq, List.filter_eq_nil_iff, inserted,
    List.mem_filterMap]
  simp

/-- An edited placement hosts a partition where it was inserted last, or else as before. -/
theorem IsSingle.hostOf_edited (single : placement.IsSingle) (edits : List Edit)
    (partition : PartitionId) :
    (placement.edited edits).hostOf partition =
      (lastHost edits partition).or (placement.hostOf partition) := by
  induction edits using List.reverseRecOn with
  | nil => rfl
  | append_singleton edits edit ih =>
    have step : placement.edited (edits ++ [edit]) = (placement.edited edits).edit edit :=
      placement.edited_append edits [edit]
    rw [step, (single.edited edits).hostOf_edit, ih, lastHost_concat]
    split
    · rfl
    · rfl

theorem isSingle_built (edits : List Edit) : (built edits).IsSingle := isSingle_empty.edited edits

theorem hostOf_built (edits : List Edit) : (built edits).hostOf = lastHost edits := by
  funext partition
  rw [built, isSingle_empty.hostOf_edited]
  exact Option.or_none

theorem shows_built (edits : List Edit) : (built edits).Shows (lastHost edits) :=
  hostOf_built edits ▸ (isSingle_built edits).shows

theorem mem_partitions_built :
    partition ∈ (built edits).partitions ↔ partition ∈ inserted edits := by
  rw [← isSome_byPartition, (shows_built edits).byPartition, isSome_lastHost]

theorem partitionCount_built (edits : List Edit) :
    (built edits).partitionCount = (inserted edits).dedup.length := by
  have same : ((built edits).pairs.map (·.2)).Perm (inserted edits).dedup := by
    refine (List.perm_ext_iff_of_nodup (isSingle_built edits).nodup_partitions
      (List.nodup_dedup _)).2 fun partition => ?_
    rw [List.mem_dedup, ← mem_partitions_built, partitions, IdSet.mem_ofList]
  rw [partitionCount_eq, ← same.length_eq, List.length_map]

end

section
variable {placement target middle : Placement}

/-- In views that say the same, a move is what two placements differ in. -/
theorem Shows.mem_movesTo {here? there? : PartitionId → Option HostId}
    (shows : placement.Shows here?) (showsToo : target.Shows there?) {move : Relocation} :
    move ∈ placement.movesTo target ↔
      here? move.partition = some move.source ∧ there? move.partition = move.target ∧
        move.target ≠ some move.source := by
  rw [Placement.mem_movesTo, shows.byPartition, showsToo.byPartition]

theorem mem_reinsertions {moves : List Relocation} {edit : Edit} :
    edit ∈ reinsertions moves ↔
      ∃ move ∈ moves, ∃ host, move.target = some host ∧ .insert host move.partition = edit := by
  simp only [reinsertions, List.mem_filterMap, Option.map_eq_some_iff]

/-- Carrying out the moves to a target leads there, as far as the target has the partitions. -/
theorem IsSingle.hostOf_reinsertions (single : placement.IsSingle) (singleToo : target.IsSingle)
    (partition : PartitionId) :
    (placement.edited (reinsertions (placement.movesTo target))).hostOf partition =
      (placement.hostOf partition).map fun home => (target.hostOf partition).getD home := by
  have listed (edit : Edit) : edit ∈ reinsertions (placement.movesTo target) ↔
      ∃ move : Relocation, (placement.hostOf move.partition = some move.source ∧
        target.hostOf move.partition = move.target ∧ move.target ≠ some move.source) ∧
          ∃ host, move.target = some host ∧ .insert host move.partition = edit := by
    simp only [mem_reinsertions, single.shows.mem_movesTo singleToo.shows]
  rw [single.hostOf_edited]
  cases moved : lastHost (reinsertions (placement.movesTo target)) partition with
  | some host =>
    obtain ⟨edit, last, rfl⟩ := Option.map_eq_some_iff.1 moved
    obtain ⟨member, inserts⟩ := List.mem_filter.1 (List.mem_of_getLast? last)
    obtain ⟨move, ⟨here, there, _⟩, host, wanted, rfl⟩ := (listed edit).1 member
    cases of_decide_eq_true inserts
    rw [here, there, wanted]
    rfl
  | none =>
    have unmoved : partition ∉ inserted (reinsertions (placement.movesTo target)) := by
      rw [← isSome_lastHost, moved]
      exact Bool.false_ne_true
    cases here : placement.hostOf partition with
    | none => rfl
    | some home =>
      cases there : target.hostOf partition with
      | none => rfl
      | some host =>
        have stays : host = home := by
          by_contra differs
          have move := (listed (.insert host partition)).2 ⟨⟨partition, home, some host⟩,
            ⟨here, there, fun same => differs (Option.some.inj same)⟩, host, rfl, rfl⟩
          exact unmoved (List.mem_filterMap.2 ⟨_, move, rfl⟩)
        rw [stays]
        rfl

theorem movedCount_comm (same : placement.partitions = target.partitions) :
    placement.movedCount target = target.movedCount placement := by
  rw [movedCount_eq_countP, movedCount_eq_countP, same]
  exact List.countP_congr fun partition _ => by rw [bne_comm]

theorem movedCount_eq_zero_iff (same : placement.partitions = target.partitions) :
    placement.movedCount target = 0 ↔ placement.byPartition = target.byPartition := by
  constructor
  · intro unmoved
    rw [movedCount_eq_countP, List.countP_eq_zero] at unmoved
    apply IdMap.ext
    intro partition
    by_cases member : partition ∈ placement.partitions
    · have stays := unmoved partition member
      rw [bne_iff_ne, ne_eq, not_not] at stays
      exact stays.symm
    · have absent {known : Placement} (missing : partition ∉ known.partitions) :
          known.byPartition.get? partition = none := by
        rw [← Option.not_isSome_iff_eq_none, isSome_byPartition]
        exact missing
      rw [absent member, absent (same ▸ member)]
  · intro equal
    exact movedCount_eq_zero equal.symm

theorem countP_or_le {β : Type} (first second : β → Bool) (xs : List β) :
    xs.countP (fun x => first x || second x) ≤ xs.countP first + xs.countP second := by
  induction xs with
  | nil => exact Nat.le_refl 0
  | cons x xs ih =>
    rw [List.countP_cons, List.countP_cons, List.countP_cons]
    cases first x <;> cases second x <;> simp <;> omega

theorem movedCount_le (same : placement.partitions = middle.partitions) :
    placement.movedCount target ≤ placement.movedCount middle + middle.movedCount target := by
  rw [movedCount_eq_countP, movedCount_eq_countP placement middle, movedCount_eq_countP, ← same]
  refine Nat.le_trans (List.countP_mono_left fun partition _ apart => ?_) (countP_or_le ..)
  rw [Bool.or_eq_true, bne_iff_ne, bne_iff_ne]
  rw [bne_iff_ne] at apart
  by_contra stays
  rw [not_or, not_not, not_not] at stays
  exact apart (stays.2.trans stays.1)

end

/-- However placements were built: every view shows each partition where it was inserted last and
nowhere else, no host is lost, and the partitions are counted once each. The moves from one to
another come by partition and are exactly what the two differ in, and inserting what they name
gives every partition the host that it has in the target, if it has one there. Over the same
partitions the number of moves is a distance. -/
theorem moves_of_built (edits others further : List Edit) :
    let placement := built edits
    let target := built others
    let goal := built further
    let moves := placement.movesTo target
    (∀ partition, (lastHost edits partition).isSome ↔ partition ∈ inserted edits) ∧
      placement.Shows (lastHost edits) ∧
      (∀ later, ∀ host ∈ placement.hostIds, host ∈ (built (edits ++ later)).hostIds) ∧
      placement.partitionCount = (inserted edits).dedup.length ∧
      (moves.map (·.partition)).Pairwise (· < ·) ∧
      (∀ move, move ∈ moves ↔ lastHost edits move.partition = some move.source ∧
        lastHost others move.partition = move.target ∧ move.target ≠ some move.source) ∧
      (placement.edited (reinsertions moves)).Shows (fun partition =>
        (lastHost edits partition).map fun home => (lastHost others partition).getD home) ∧
      (placement.partitions = target.partitions →
        placement.movedCount target = target.movedCount placement ∧
          (placement.movedCount target = 0 ↔ placement.byPartition = target.byPartition) ∧
          (target.partitions = goal.partitions →
            placement.movedCount goal ≤ placement.movedCount target + target.movedCount goal)) := by
  intro placement target goal moves
  have single : placement.IsSingle := isSingle_built edits
  have singleToo : target.IsSingle := isSingle_built others
  have shows := shows_built edits
  have showsToo := shows_built others
  refine ⟨fun _ => isSome_lastHost, shows, fun later host known => ?_, partitionCount_built edits,
    ascending_movesTo placement target, fun move => shows.mem_movesTo showsToo, ?_, fun same => ?_⟩
  · rw [built, edited_append]
    exact mem_hostIds_edited known later
  · have carried : (placement.edited (reinsertions moves)).hostOf = fun partition =>
        (lastHost edits partition).map fun home => (lastHost others partition).getD home := by
      funext partition
      rw [single.hostOf_reinsertions singleToo, shows.hostOf, showsToo.hostOf]
    exact carried ▸ (single.edited _).shows
  · exact ⟨movedCount_comm same, movedCount_eq_zero_iff same, fun _ => movedCount_le same⟩

/-- A partition that was inserted on two hosts, a host that holds nothing, and three placements of
which each differs from the next. -/
theorem moves_of_built_thrice :
    let edits : List Edit :=
      [.insert 200 201, .insert 100 101, .addHost 300, .insert 200 101, .insert 200 202]
    let others : List Edit := [.insert 100 101, .insert 200 202, .insert 300 201]
    let further : List Edit := [.insert 100 201, .insert 100 101, .insert 100 202]
    let placement := built edits
    let target := built others
    let goal := built further
    placement.hostIds = .ofList [100, 200, 300] ∧
      placement.movesTo target = [⟨101, 200, some 100⟩, ⟨201, 200, some 300⟩] ∧
      placement.partitions = target.partitions ∧ target.partitions = goal.partitions ∧
      placement.Shows (lastHost edits) ∧
      (placement.edited (reinsertions (placement.movesTo target))).Shows (fun partition =>
        (lastHost edits partition).map fun home => (lastHost others partition).getD home) ∧
      placement.movedCount target = target.movedCount placement ∧
      (placement.movedCount target = 0 ↔ placement.byPartition = target.byPartition) ∧
      placement.movedCount goal ≤ placement.movedCount target + target.movedCount goal := by
  intro edits others further placement target goal
  obtain ⟨_, shows, _, _, _, _, carried, distance⟩ := moves_of_built edits others further
  have same : placement.partitions = target.partitions := by decide
  have sameToo : target.partitions = goal.partitions := by decide
  obtain ⟨symmetric, zero, triangle⟩ := distance same
  exact ⟨by decide, by decide, same, sameToo, shows, carried, symmetric, zero, triangle sameToo⟩

end Rebalance.Placement
