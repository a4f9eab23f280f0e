import Mathlib.Data.List.Nodup
import Rebalance.Proofs.Placement.Assignment
import Rebalance.Proofs.Placement.Views

/-!
Placements and assignments describe each other. On a model that numbers its hosts and
partitions without repetition, decoding an assignment and encoding the placement leads back,
loads are numbers of partitions on a host, and what two assignments place apart is what the
placements move.
-/

namespace Rebalance

namespace Model

variable {α : Type}

/-- Hosts and partitions are numbered without repetition. -/
structure IsNumbered (model : Model α) : Prop where
  hosts : model.hosts.Nodup
  partitions : model.partitions.Nodup

theorem hostNumber_eq_some_iff {model : Model α} (numbered : model.IsNumbered) {host : HostId}
    {number : Nat} : model.hostNumber host = some number ↔ model.hosts[number]? = some host := by
  rw [hostNumber, List.idxOf?_eq_some_iff]
  constructor
  · rintro ⟨bound, here, _⟩
    rw [List.getElem?_eq_getElem bound, here]
  · intro found
    obtain ⟨bound, here⟩ := List.getElem?_eq_some_iff.1 found
    refine ⟨bound, here, fun earlier below same => ?_⟩
    have index := (numbered.hosts.getElem_inj_iff).1
      (same.trans here.symm)
    omega

theorem exists_hostNumber {model : Model α} (numbered : model.IsNumbered) {host : HostId}
    (known : host ∈ model.hosts) : ∃ number, model.hostNumber host = some number := by
  obtain ⟨number, bound, rfl⟩ := List.getElem_of_mem known
  exact ⟨number, (hostNumber_eq_some_iff numbered).2 (List.getElem?_eq_getElem bound)⟩

theorem hostNumber_inj {model : Model α} (numbered : model.IsNumbered) {host other : HostId}
    {number : Nat} (here : model.hostNumber host = some number)
    (there : model.hostNumber other = some number) : host = other := by
  rw [hostNumber_eq_some_iff numbered] at here there
  exact Option.some.inj (here.symm.trans there)

theorem size_assignmentOf (model : Model α) (placement : Placement) :
    (model.assignmentOf placement).size = model.partitions.length := by
  simp [assignmentOf]

theorem hostAt_assignmentOf (model : Model α) (placement : Placement) (number : Nat) :
    (model.assignmentOf placement).hostAt number =
      (model.partitions[number]?).bind fun partition =>
        (placement.byPartition.get? partition).bind model.hostNumber := by
  rw [Assignment.hostAt, assignmentOf, List.getElem?_toArray, List.getElem?_map]
  cases model.partitions[number]? <;> rfl

def InRange (model : Model α) (assignment : Assignment) : Prop :=
  ∀ number host, assignment.hostAt number = some host → host < model.hosts.length

theorem load_eq_zero_of_inRange {model : Model α} {assignment : Assignment}
    (inRange : model.InRange assignment) {host : Nat} (beyond : model.hosts.length ≤ host) :
    assignment.load host = 0 := by
  apply List.countP_eq_zero.2
  intro number _ here
  have below := inRange number host (beq_iff_eq.1 here)
  omega

theorem inRange_assignmentOf (model : Model α) (placement : Placement) :
    model.InRange (model.assignmentOf placement) := by
  intro number host found
  rw [hostAt_assignmentOf] at found
  obtain ⟨partition, _, found⟩ := Option.bind_eq_some_iff.1 found
  obtain ⟨known, _, found⟩ := Option.bind_eq_some_iff.1 found
  exact (List.idxOf?_eq_some_iff.1 found).1

theorem exists_hostAt_assignmentOf {model : Model α} (numbered : model.IsNumbered)
    {placement : Placement} (partitions : model.partitions = placement.partitions.toList)
    (known : ∀ entry ∈ placement.pairs, entry.1 ∈ model.hosts) {number : Nat}
    (bound : number < model.partitions.length) :
    ∃ host, (model.assignmentOf placement).hostAt number = some host := by
  have member : model.partitions[number] ∈ placement.partitions := by
    rw [IdSet.mem_def, ← partitions]
    exact List.getElem_mem bound
  obtain ⟨host, found⟩ := Placement.exists_byPartition member
  obtain ⟨index, encoded⟩ :=
    exists_hostNumber numbered (known _ (Placement.mem_pairs_of_byPartition found))
  refine ⟨index, ?_⟩
  rw [hostAt_assignmentOf, List.getElem?_eq_getElem bound, Option.bind_some, found,
    Option.bind_some, encoded]

def placeEntry (model : Model α) (placement : Placement) (entry : PartitionId × Option Nat) :
    Placement :=
  match entry.2.bind (model.hosts[·]?) with
  | some host => placement.insert host entry.1
  | none => placement

theorem decode_eq_foldl (model : Model α) (assignment : Assignment) :
    model.decode assignment =
      (model.partitions.zip assignment.toList).foldl model.placeEntry .empty := rfl

/-- An entry puts its partition, if that is new, on the host that it names. -/
theorem mem_pairs_placeEntry (model : Model α) {placement : Placement} {first : PartitionId}
    (fresh : ∀ host, (host, first) ∉ placement.pairs) (choice : Option Nat) {host : HostId}
    {partition : PartitionId} :
    (host, partition) ∈ (model.placeEntry placement (first, choice)).pairs ↔
      (host, partition) ∈ placement.pairs ∨
        (partition = first ∧ choice.bind (model.hosts[·]?) = some host) := by
  rw [placeEntry]
  cases choice.bind (model.hosts[·]?) with
  | none => simp
  | some known =>
    rw [Placement.mem_pairs_insert]
    constructor
    · rintro (⟨rfl, rfl⟩ | ⟨old, _⟩)
      · exact .inr ⟨rfl, rfl⟩
      · exact .inl old
    · rintro (old | ⟨rfl, same⟩)
      · right
        refine ⟨old, ?_⟩
        rintro rfl
        exact fresh host old
      · cases same
        exact .inl ⟨rfl, rfl⟩

theorem mem_pairs_foldl_placeEntry (model : Model α) {entries : List (PartitionId × Option Nat)}
    {placement : Placement} (distinct : (entries.map (·.1)).Nodup)
    (fresh : ∀ entry ∈ entries, ∀ host, (host, entry.1) ∉ placement.pairs) (host : HostId)
    (partition : PartitionId) :
    (host, partition) ∈ (entries.foldl model.placeEntry placement).pairs ↔
      (host, partition) ∈ placement.pairs ∨
        ∃ number, (partition, number) ∈ entries ∧ number.bind (model.hosts[·]?) = some host := by
  induction entries generalizing placement with
  | nil => simp
  | cons entry entries ih =>
    obtain ⟨first, choice⟩ := entry
    rw [List.map_cons, List.nodup_cons] at distinct
    have freshHere := fresh (first, choice) List.mem_cons_self
    have freshLater : ∀ entry ∈ entries, ∀ host,
        (host, entry.1) ∉ (model.placeEntry placement (first, choice)).pairs := by
      intro other member host listed
      rcases (model.mem_pairs_placeEntry freshHere choice).1 listed with old | ⟨same, _⟩
      · exact fresh other (List.mem_cons_of_mem _ member) host old
      · exact distinct.1 (List.mem_map.2 ⟨other, member, same⟩)
    have split : (∃ number, (partition, number) ∈ (first, choice) :: entries ∧
          number.bind (model.hosts[·]?) = some host) ↔
        (partition = first ∧ choice.bind (model.hosts[·]?) = some host) ∨
          ∃ number, (partition, number) ∈ entries ∧
            number.bind (model.hosts[·]?) = some host := by
      constructor
      · rintro ⟨number, member, found⟩
        rcases List.mem_cons.1 member with same | old
        · cases same
          exact .inl ⟨rfl, found⟩
        · exact .inr ⟨number, old, found⟩
      · rintro (⟨rfl, found⟩ | ⟨number, old, found⟩)
        · exact ⟨choice, List.mem_cons_self, found⟩
        · exact ⟨number, List.mem_cons_of_mem _ old, found⟩
    rw [List.foldl_cons, ih distinct.2 freshLater, model.mem_pairs_placeEntry freshHere choice,
      split, or_assoc]

theorem isSingle_decode (model : Model α) (assignment : Assignment) :
    (model.decode assignment).IsSingle := by
  rw [decode_eq_foldl]
  apply List.foldlRecOn _ _ Placement.isSingle_empty
  intro placement single entry _
  unfold placeEntry
  split
  · exact single.insert _ _
  · exact single

theorem mem_pairs_decode {model : Model α} (numbered : model.IsNumbered)
    {assignment : Assignment} (size : assignment.size = model.partitions.length) {host : HostId}
    {partition : PartitionId} :
    (host, partition) ∈ (model.decode assignment).pairs ↔
      ∃ number, model.partitions[number]? = some partition ∧
        (assignment.hostAt number).bind (model.hosts[·]?) = some host := by
  have lengths : model.partitions.length = assignment.toList.length := by
    rw [Array.length_toList, size]
  rw [decode_eq_foldl, mem_pairs_foldl_placeEntry]
  · simp only [Placement.pairs_empty, List.not_mem_nil, false_or]
    constructor
    · rintro ⟨choice, member, found⟩
      obtain ⟨number, bound, here⟩ := List.getElem_of_mem member
      rw [List.getElem_zip, Prod.mk.injEq] at here
      refine ⟨number, ?_, ?_⟩
      · rw [← here.1, List.getElem?_eq_getElem]
      · have inside : number < assignment.toList.length :=
          Nat.lt_of_lt_of_le bound (List.length_zip ▸ Nat.min_le_right _ _)
        rw [Assignment.hostAt, ← Array.getElem?_toList, List.getElem?_eq_getElem inside, here.2]
        exact found
    · rintro ⟨number, here, found⟩
      obtain ⟨bound, rfl⟩ := List.getElem?_eq_some_iff.1 here
      refine ⟨assignment.hostAt number, ?_, found⟩
      apply List.mem_of_getElem? (i := number)
      rw [List.getElem?_zip_eq_some, Assignment.hostAt, Array.getElem?_toList,
        Array.getElem?_eq_getElem (by omega)]
      exact ⟨here, rfl⟩
  · rw [List.map_fst_zip (Nat.le_of_eq lengths)]
    exact numbered.partitions
  · exact fun _ _ host listed => absurd listed List.not_mem_nil

theorem byPartition_decode {model : Model α} (numbered : model.IsNumbered)
    {assignment : Assignment} (size : assignment.size = model.partitions.length) {number : Nat}
    {partition : PartitionId} (here : model.partitions[number]? = some partition) :
    (model.decode assignment).byPartition.get? partition =
      (assignment.hostAt number).bind (model.hosts[·]?) := by
  apply Option.ext
  intro host
  rw [(model.isSingle_decode assignment).byPartition_eq_some_iff, mem_pairs_decode numbered size]
  constructor
  · rintro ⟨other, there, found⟩
    obtain ⟨bound, same⟩ := List.getElem?_eq_some_iff.1 here
    obtain ⟨boundToo, sameToo⟩ := List.getElem?_eq_some_iff.1 there
    have index := (numbered.partitions.getElem_inj_iff).1
      (same.trans sameToo.symm)
    rw [index]
    exact found
  · exact fun found => ⟨number, here, found⟩

theorem mem_hosts_of_mem_decode {model : Model α} (numbered : model.IsNumbered)
    {assignment : Assignment} (size : assignment.size = model.partitions.length)
    {entry : HostId × PartitionId} (listed : entry ∈ (model.decode assignment).pairs) :
    entry.1 ∈ model.hosts := by
  obtain ⟨number, _, found⟩ := (mem_pairs_decode numbered size).1 listed
  obtain ⟨index, _, here⟩ := Option.bind_eq_some_iff.1 found
  exact List.mem_of_getElem? here

theorem mem_partitions_decode {model : Model α} (numbered : model.IsNumbered)
    {assignment : Assignment} (size : assignment.size = model.partitions.length)
    (inRange : model.InRange assignment)
    (assigned : ∀ number < model.partitions.length, ∃ host,
      assignment.hostAt number = some host) {partition : PartitionId} :
    partition ∈ (model.decode assignment).partitions ↔ partition ∈ model.partitions := by
  rw [Placement.mem_partitions]
  constructor
  · rintro ⟨host, listed⟩
    obtain ⟨number, here, _⟩ := (mem_pairs_decode numbered size).1 listed
    exact List.mem_of_getElem? here
  · intro member
    obtain ⟨number, bound, here⟩ := List.getElem_of_mem member
    obtain ⟨index, chosen⟩ := assigned number bound
    have inside := inRange number index chosen
    refine ⟨model.hosts[index], (mem_pairs_decode numbered size).2
      ⟨number, List.getElem?_eq_some_iff.2 ⟨bound, here⟩, ?_⟩⟩
    rw [chosen, Option.bind_some]
    exact List.getElem?_eq_getElem inside

theorem assignmentOf_decode_eq {model : Model α} (numbered : model.IsNumbered)
    {assignment : Assignment} (size : assignment.size = model.partitions.length)
    (inRange : model.InRange assignment) :
    model.assignmentOf (model.decode assignment) = assignment := by
  apply Assignment.ext_hostAt ((model.size_assignmentOf _).trans size.symm)
  intro number bound
  rw [size_assignmentOf] at bound
  rw [hostAt_assignmentOf, List.getElem?_eq_getElem bound, Option.bind_some,
    byPartition_decode numbered size (List.getElem?_eq_getElem bound)]
  cases chosen : assignment.hostAt number with
  | none => rfl
  | some host =>
    have inside := inRange number host chosen
    rw [Option.bind_some, List.getElem?_eq_getElem inside, Option.bind_some,
      hostNumber_eq_some_iff numbered, List.getElem?_eq_getElem inside]

theorem byPartition_decode_assignmentOf {model : Model α} (numbered : model.IsNumbered)
    {placement : Placement} (same : ∀ partition, partition ∈ placement.partitions ↔
      partition ∈ model.partitions)
    (known : ∀ entry ∈ placement.pairs, entry.1 ∈ model.hosts) :
    (model.decode (model.assignmentOf placement)).byPartition = placement.byPartition := by
  have size := model.size_assignmentOf placement
  apply IdMap.ext
  intro partition
  by_cases member : partition ∈ model.partitions
  · obtain ⟨number, bound, rfl⟩ := List.getElem_of_mem member
    have here := List.getElem?_eq_getElem bound
    obtain ⟨host, found⟩ := Placement.exists_byPartition ((same _).2 member)
    obtain ⟨index, encoded⟩ :=
      exists_hostNumber numbered (known _ (Placement.mem_pairs_of_byPartition found))
    rw [byPartition_decode numbered size here, hostAt_assignmentOf, here, Option.bind_some, found,
      Option.bind_some, encoded, Option.bind_some]
    exact (hostNumber_eq_some_iff numbered).1 encoded
  · have absentHere : placement.byPartition.get? partition = none := by
      rw [← Option.not_isSome_iff_eq_none, Placement.isSome_byPartition, same]
      exact member
    have absentThere :
        (model.decode (model.assignmentOf placement)).byPartition.get? partition = none := by
      rw [← Option.not_isSome_iff_eq_none, Placement.isSome_byPartition, Placement.mem_partitions]
      rintro ⟨host, listed⟩
      obtain ⟨number, here, _⟩ := (mem_pairs_decode numbered size).1 listed
      exact member (List.mem_of_getElem? here)
    rw [absentHere, absentThere]

theorem load_assignmentOf {model : Model α} (numbered : model.IsNumbered) (placement : Placement)
    {number : Nat} {host : HostId} (here : model.hosts[number]? = some host) :
    (model.assignmentOf placement).load number =
      model.partitions.countP fun partition =>
        placement.byPartition.get? partition == some host := by
  rw [Assignment.load, size_assignmentOf, ← countP_range_length model.partitions]
  apply countP_range_congr
  intro index bound
  rw [hostAt_assignmentOf, List.getElem?_eq_getElem bound, Option.bind_some, Option.any_some]
  apply Bool.eq_iff_iff.2
  rw [beq_iff_eq, beq_iff_eq, Option.bind_eq_some_iff]
  constructor
  · rintro ⟨known, found, encoded⟩
    rw [found, hostNumber_inj numbered encoded ((hostNumber_eq_some_iff numbered).2 here)]
  · exact fun found => ⟨host, found, (hostNumber_eq_some_iff numbered).2 here⟩

theorem load_assignmentOf_le {model : Model α} (numbered : model.IsNumbered)
    {placement : Placement} {limit : Nat}
    (fits : ∀ host, (model.partitions.countP fun partition =>
      placement.byPartition.get? partition == some host) ≤ limit) (number : Nat) :
    (model.assignmentOf placement).load number ≤ limit := by
  by_cases below : number < model.hosts.length
  · rw [load_assignmentOf numbered placement (List.getElem?_eq_getElem below)]
    exact fits _
  · rw [load_eq_zero_of_inRange (model.inRange_assignmentOf placement)
      (Nat.le_of_not_lt below)]
    exact Nat.zero_le _

theorem apart_assignmentOf {model : Model α} (numbered : model.IsNumbered)
    {placement target : Placement} (partitions : model.partitions = placement.partitions.toList)
    (same : target.partitions = placement.partitions)
    (knownHere : ∀ entry ∈ placement.pairs, entry.1 ∈ model.hosts)
    (knownThere : ∀ entry ∈ target.pairs, entry.1 ∈ model.hosts) :
    (model.assignmentOf target).apart (model.assignmentOf placement) =
      placement.movedCount target := by
  rw [Assignment.apart, size_assignmentOf, Placement.movedCount_eq_countP, ← partitions,
    ← countP_range_length model.partitions]
  apply countP_range_congr
  intro index bound
  have member : model.partitions[index] ∈ placement.partitions := by
    rw [IdSet.mem_def, ← partitions]
    exact List.getElem_mem bound
  obtain ⟨home, foundHere⟩ := Placement.exists_byPartition member
  obtain ⟨host, foundThere⟩ := Placement.exists_byPartition (same ▸ member)
  obtain ⟨homeNumber, encodedHere⟩ :=
    exists_hostNumber numbered (knownHere _ (Placement.mem_pairs_of_byPartition foundHere))
  obtain ⟨hostNumber, encodedThere⟩ :=
    exists_hostNumber numbered (knownThere _ (Placement.mem_pairs_of_byPartition foundThere))
  rw [hostAt_assignmentOf, hostAt_assignmentOf, List.getElem?_eq_getElem bound, Option.bind_some,
    Option.bind_some, Option.any_some, foundHere, foundThere, Option.bind_some, Option.bind_some,
    encodedHere, encodedThere]
  have differ : hostNumber = homeNumber ↔ host = home := by
    constructor
    · rintro rfl
      exact hostNumber_inj numbered encodedThere encodedHere
    · rintro rfl
      exact Option.some.inj (encodedThere.symm.trans encodedHere)
  apply Bool.eq_iff_iff.2
  simp [differ]

end Model

end Rebalance
