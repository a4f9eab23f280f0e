import Rebalance.Proofs.Placement.Cost
import Rebalance.Proofs.Placement.Hosting

/-!
Placements and assignments are inverse descriptions. Encoding what was decoded leads back to the
assignment, and decoding what was encoded to the placement, as far as its hosts hold anything: an
assignment does not tell which hosts are empty.
-/

namespace Rebalance

namespace Placement

def occupied (placement : Placement) : Placement :=
  ⟨placement.hosts.entries.filter (!·.2.isEmpty), placement.hosts.ascending.filter _⟩

theorem partitionsOn_occupied {placement : Placement} {host : HostId} {held : IdSet} :
    placement.occupied.partitionsOn host = some held ↔
      placement.partitionsOn host = some held ∧ ∃ partition, partition ∈ held := by
  have filled : held.isEmpty = false ↔ ∃ partition, partition ∈ held :=
    List.isEmpty_eq_false_iff_exists_mem
  unfold occupied partitionsOn
  rw [IdMap.get?_eq_some_iff, IdMap.get?_eq_some_iff, List.mem_filter, Bool.not_eq_true', filled]

theorem mem_pairs_occupied {placement : Placement} {host : HostId} {partition : PartitionId} :
    (host, partition) ∈ placement.occupied.pairs ↔ (host, partition) ∈ placement.pairs := by
  simp only [mem_pairs, partitionsOn_occupied]
  constructor
  · rintro ⟨held, ⟨here, _⟩, member⟩
    exact ⟨held, here, member⟩
  · rintro ⟨held, here, member⟩
    exact ⟨held, ⟨here, partition, member⟩, member⟩

theorem mem_hostIds_occupied {placement : Placement} {host : HostId} :
    host ∈ placement.occupied.hostIds ↔ ∃ partition, (host, partition) ∈ placement.pairs := by
  simp only [mem_hostIds, mem_pairs, partitionsOn_occupied]
  constructor
  · rintro ⟨held, here, partition, member⟩
    exact ⟨partition, held, here, member⟩
  · rintro ⟨partition, held, here, member⟩
    exact ⟨held, here, partition, member⟩

end Placement

namespace Model

section
variable {α : Type}

/-- Placing entries makes known the hosts that they name, and no other. -/
theorem mem_hostIds_foldl_placeEntry (model : Model α) (entries : List (PartitionId × Option Nat))
    (placement : Placement) (host : HostId) :
    host ∈ (entries.foldl model.placeEntry placement).hostIds ↔
      host ∈ placement.hostIds ∨
        ∃ entry ∈ entries, entry.2.bind (model.hosts[·]?) = some host := by
  induction entries generalizing placement with
  | nil => simp
  | cons entry entries ih =>
    have placed : host ∈ (model.placeEntry placement entry).hostIds ↔
        host ∈ placement.hostIds ∨ entry.2.bind (model.hosts[·]?) = some host := by
      unfold placeEntry
      cases entry.2.bind (model.hosts[·]?) with
      | none => simp
      | some named => rw [Placement.mem_hostIds_insert, Option.some.injEq, or_comm, eq_comm]
    rw [List.foldl_cons, ih, placed, List.exists_mem_cons_iff, or_assoc]

/-- The hosts of a decoded placement are those that hold a partition in it. -/
theorem mem_hostIds_decode {model : Model α} (numbered : model.IsNumbered)
    {assignment : Assignment} (size : assignment.size = model.partitions.length) {host : HostId} :
    host ∈ (model.decode assignment).hostIds ↔
      ∃ partition, (host, partition) ∈ (model.decode assignment).pairs := by
  constructor
  · intro listed
    rw [decode_eq_foldl, mem_hostIds_foldl_placeEntry] at listed
    obtain ⟨entry, member, named⟩ := listed.resolve_left IdSet.mem_empty
    obtain ⟨number, here⟩ := List.mem_iff_getElem?.1 member
    rw [List.getElem?_zip_eq_some, Array.getElem?_toList] at here
    refine ⟨entry.1, (mem_pairs_decode numbered size).2 ⟨number, here.1, ?_⟩⟩
    rw [Assignment.hostAt, here.2, Option.getD_some]
    exact named
  · rintro ⟨partition, listed⟩
    exact Placement.mem_hostIds_of_mem_pairs listed

variable {model : Model α} {placement : Placement}

theorem bind_hostNumber_eq_some_iff (numbered : model.IsNumbered) {known : Option HostId}
    {host : HostId} : (known.bind model.hostNumber).bind (model.hosts[·]?) = some host ↔
      known = some host ∧ host ∈ model.hosts := by
  constructor
  · intro found
    obtain ⟨number, encoded, here⟩ := Option.bind_eq_some_iff.1 found
    obtain ⟨other, rfl, numberOf⟩ := Option.bind_eq_some_iff.1 encoded
    rw [hostNumber_eq_some_iff numbered, here, Option.some.injEq] at numberOf
    exact ⟨congrArg some numberOf.symm, List.mem_of_getElem? here⟩
  · rintro ⟨rfl, member⟩
    obtain ⟨number, encoded⟩ := exists_hostNumber numbered member
    rw [Option.bind_some, encoded, Option.bind_some]
    exact (hostNumber_eq_some_iff numbered).1 encoded

/-- What an encoded placement decodes to: the host that is named for each partition, as far as
the model has both. -/
theorem mem_pairs_decode_assignmentOf (numbered : model.IsNumbered) {host : HostId}
    {partition : PartitionId} :
    (host, partition) ∈ (model.decode (model.assignmentOf placement)).pairs ↔
      placement.byPartition.get? partition = some host ∧ host ∈ model.hosts ∧
        partition ∈ model.partitions := by
  rw [mem_pairs_decode numbered (model.size_assignmentOf placement), ← and_assoc,
    ← bind_hostNumber_eq_some_iff numbered]
  constructor
  · rintro ⟨number, here, found⟩
    rw [hostAt_assignmentOf, here, Option.bind_some] at found
    exact ⟨found, List.mem_of_getElem? here⟩
  · rintro ⟨found, member⟩
    obtain ⟨number, here⟩ := List.mem_iff_getElem?.1 member
    refine ⟨number, here, ?_⟩
    rw [hostAt_assignmentOf, here, Option.bind_some]
    exact found

/-- Decoding an encoded placement leads back to it, without its empty hosts. -/
theorem decode_assignmentOf_eq (numbered : model.IsNumbered) (single : placement.IsSingle)
    (known : ∀ entry ∈ placement.pairs, entry.1 ∈ model.hosts ∧ entry.2 ∈ model.partitions) :
    model.decode (model.assignmentOf placement) = placement.occupied := by
  have pairs (host : HostId) (partition : PartitionId) :
      (host, partition) ∈ (model.decode (model.assignmentOf placement)).pairs ↔
        (host, partition) ∈ placement.pairs := by
    rw [mem_pairs_decode_assignmentOf numbered, single.byPartition_eq_some_iff]
    exact and_iff_left_of_imp fun listed => known (host, partition) listed
  apply Placement.ext_of_mem
  · intro host
    rw [mem_hostIds_decode numbered (model.size_assignmentOf placement),
      Placement.mem_hostIds_occupied]
    exact exists_congr (pairs host)
  · intro host partition
    rw [pairs, Placement.mem_pairs_occupied]

end

variable {α : Type} [Scalar α]

/-- In a model that was built, hosts and partitions stand in ascending order and are told by their
numbers, every assignment of valid numbers is what its placement is encoded as, and every
placement on hosts of the model that holds partitions of the model, each on one host, is what its
assignment decodes to, but for the hosts that it leaves empty. -/
theorem encoding_inverse (sample : Sample) (current : Placement) (hosts : IdSet) :
    let model : Model α := build sample current hosts
    model.hosts.Pairwise (· < ·) ∧ model.partitions.Pairwise (· < ·) ∧
      (∀ host, host ∈ model.hosts ↔ host ∈ hosts ∨ host ∈ current.hostIds) ∧
      (∀ partition, partition ∈ model.partitions ↔ partition ∈ current.partitions) ∧
      (∀ host number, model.hostNumber host = some number ↔ model.hosts[number]? = some host) ∧
      (∀ assignment : Assignment, assignment.size = model.partitions.length →
        (∀ host, some host ∈ assignment → host < model.hosts.length) →
          model.assignmentOf (model.decode assignment) = assignment) ∧
      ∀ placement : Placement, placement.IsSingle →
        (∀ host ∈ placement.hostIds, host ∈ model.hosts) →
        (∀ partition ∈ placement.partitions, partition ∈ model.partitions) →
          model.decode (model.assignmentOf placement) = placement.occupied := by
  intro model
  have numbered : model.IsNumbered := isNumbered_build sample current hosts
  refine ⟨IdSet.ascending _, IdSet.ascending _, fun host => IdSet.mem_union, fun _ => Iff.rfl,
    fun host number => hostNumber_eq_some_iff numbered, ?_, ?_⟩
  · intro assignment size valid
    apply assignmentOf_decode_eq numbered size
    intro number host found
    apply valid host
    cases here : assignment[number]? with
    | none => simp [Assignment.hostAt, here] at found
    | some choice =>
      rw [Assignment.hostAt, here, Option.getD_some] at found
      exact Array.mem_of_getElem? (found ▸ here)
  · intro placement single onHosts ofPartitions
    apply decode_assignmentOf_eq numbered single
    intro entry listed
    exact ⟨onHosts _ (Placement.mem_hostIds_of_mem_pairs listed),
      ofPartitions _ (Placement.mem_partitions.2 ⟨entry.1, listed⟩)⟩

/-- Hosts from two lists, an assignment that leaves a partition out, and a placement with an empty
host that leaves out another one. -/
theorem encoding_inverse_fourHosts :
    let key : GroupKey := { procedure := "pay", host := 300, scope := .single 201 }
    let sample := ((Sample.new 3).recordTransaction key 40 .far).2.reconcile
    let current := (Placement.ofPairs [(100, 101), (200, 201), (200, 202)]).addHost 400
    let hosts : IdSet := .ofList [300, 100]
    let model : Model Float := build sample current hosts
    let assignment : Assignment := #[some 3, none, some 0]
    let placement := (Placement.ofPairs [(300, 202), (100, 101)]).addHost 200
    model.hosts = [100, 200, 300, 400] ∧ model.partitions = [101, 201, 202] ∧
      assignment.size = model.partitions.length ∧
      (∀ host, some host ∈ assignment → host < model.hosts.length) ∧
      placement.IsSingle ∧ (∀ host ∈ placement.hostIds, host ∈ model.hosts) ∧
      (∀ partition ∈ placement.partitions, partition ∈ model.partitions) ∧
      model.assignmentOf (model.decode assignment) = assignment ∧
      model.decode (model.assignmentOf placement) = placement.occupied := by
  intro key sample current hosts model assignment placement
  obtain ⟨_, _, _, _, _, decoded, encoded⟩ :=
    encoding_inverse (α := Float) sample current hosts
  have names : model.hosts = [100, 200, 300, 400] := by decide
  have partitions : model.partitions = [101, 201, 202] := by decide
  have size : assignment.size = model.partitions.length := by
    rw [partitions]
    rfl
  have valid : ∀ host, some host ∈ assignment → host < model.hosts.length := by
    intro host member
    have choices : host = 3 ∨ host = 0 := by simpa [assignment] using member
    rw [names]
    rcases choices with rfl | rfl
    · decide
    · decide
  have single : placement.IsSingle := by
    unfold Placement.IsSingle
    decide
  have onHosts : ∀ host ∈ placement.hostIds.toList, host ∈ model.hosts := by
    rw [names]
    decide
  have ofPartitions : ∀ partition ∈ placement.partitions.toList, partition ∈ model.partitions := by
    rw [partitions]
    decide
  exact ⟨names, partitions, size, valid, single, onHosts, ofPartitions,
    decoded assignment size valid, encoded placement single onHosts ofPartitions⟩

end Model

end Rebalance
