import Rebalance.Migration.Plan
import Rebalance.Proofs.Cluster.Serving

/-!
What a plan promises. Every planned move goes from a site that serves its partition to a down
site of the wanted host, and no two moves of a plan share a partition or a target site.
-/

namespace Rebalance

/-- A move that the sites of a topology allow. -/
structure Move.IsFeasible (move : Move) (topology : Topology) : Prop where
  target : ∃ found, topology.site? move.targetSite = some found ∧
    found.host = move.targetHost ∧ found.up = false
  source : ∃ found, topology.site? move.sourceSite = some found ∧
    found.host = move.sourceHost ∧ found.up = true ∧ found.partition = some move.partition

namespace Plan

open Placement (nodup_movesTo)

structure IsJoint (topology : Topology) (moves : List Move) : Prop where
  feasible : ∀ move ∈ moves, move.IsFeasible topology
  partitions : (moves.map (·.partition)).Nodup
  targets : (moves.map (·.targetSite)).Nodup

theorem IsJoint.sublist {topology : Topology} {moves fewer : List Move}
    (joint : IsJoint topology moves) (kept : fewer.Sublist moves) : IsJoint topology fewer where
  feasible move member := joint.feasible move (kept.subset member)
  partitions := joint.partitions.sublist (kept.map _)
  targets := joint.targets.sublist (kept.map _)

theorem mem_of_leastBy {β : Type} {rank : β → Nat} {bs : List β} {b : β}
    (found : leastBy rank bs = some b) : b ∈ bs := by
  induction bs with
  | nil => cases found
  | cons first rest ih =>
    rw [leastBy] at found
    split at found
    · next other least =>
      split at found
      · cases found
        exact List.mem_cons_of_mem _ (ih least)
      · cases found
        exact List.mem_cons_self
    · cases found
      exact List.mem_cons_self

inductive Added (topology : Topology) (plan : Plan) (relocation : Relocation) : Plan → Prop where
  | missing (absent : relocation.target = none) :
      Added topology plan relocation (plan.skip relocation.partition none .notInTarget)
  | served {host : HostId} (wanted : relocation.target = some host)
      (live : (topology.liveSiteOn host relocation.partition).isSome = true) :
      Added topology plan relocation plan
  | full {host : HostId} (wanted : relocation.target = some host)
      (unserved : (topology.liveSiteOn host relocation.partition).isSome = false)
      (taken : targetSite? topology plan.claimed host relocation.partition = none) :
      Added topology plan relocation
        (plan.skip relocation.partition (some host) .noTargetSite)
  | dead {host : HostId} {target : Site} (wanted : relocation.target = some host)
      (unserved : (topology.liveSiteOn host relocation.partition).isSome = false)
      (free : targetSite? topology plan.claimed host relocation.partition = some target)
      (lost : sourceSite? topology relocation.source host relocation.partition = none) :
      Added topology plan relocation
        (plan.skip relocation.partition (some host) .noSourceSite)
  | moved {host : HostId} {target source : Site} (wanted : relocation.target = some host)
      (unserved : (topology.liveSiteOn host relocation.partition).isSome = false)
      (free : targetSite? topology plan.claimed host relocation.partition = some target)
      (live : sourceSite? topology relocation.source host relocation.partition = some source) :
      Added topology plan relocation
        { plan with
          moves := plan.moves ++ [{
            partition := relocation.partition
            sourceHost := source.host, sourceSite := source.id
            targetHost := host, targetSite := target.id }] }

theorem added_add (topology : Topology) (plan : Plan) (relocation : Relocation) :
    Added topology plan relocation (add topology plan relocation) := by
  unfold add
  cases wanted : relocation.target with
  | none => exact .missing wanted
  | some host =>
    cases served : (topology.liveSiteOn host relocation.partition).isSome with
    | true =>
      simp only [served, if_true]
      exact .served wanted served
    | false =>
      simp only [served, Bool.false_eq_true, if_false]
      cases free : targetSite? topology plan.claimed host relocation.partition with
      | none => exact .full wanted served free
      | some target =>
        cases live : sourceSite? topology relocation.source host relocation.partition with
        | none => exact .dead wanted served free live
        | some source => exact .moved wanted served free live

variable {topology : Topology} {claimed : List SiteId} {host present : HostId}
variable {partition : PartitionId}

theorem of_targetSite? {target : Site}
    (found : targetSite? topology claimed host partition = some target) :
    (∃ site, topology.site? site = some target) ∧ target.host = host ∧ target.up = false ∧
      target.id ∉ claimed := by
  have listed := List.mem_filter.1 (mem_of_leastBy found)
  rw [Topology.downSitesOn, List.mem_filter, Topology.sitesOnHost, List.mem_filter,
    Topology.mem_siteList] at listed
  simpa [and_assoc] using listed

theorem of_sourceSite? {source : Site}
    (found : sourceSite? topology present host partition = some source) :
    (∃ site, topology.site? site = some source) ∧ source.up = true ∧
      source.partition = some partition ∧ source.host ≠ host := by
  obtain ⟨listed, apart⟩ := List.mem_filter.1 (mem_of_leastBy found)
  obtain ⟨site, here, up, held⟩ := Topology.mem_upSitesFor.1 listed
  exact ⟨⟨site, here⟩, up, held, bne_iff_ne.1 apart⟩

/-- A relocation of a new partition adds at most one move, beside those there are. -/
theorem IsJoint.add {plan : Plan} {relocation : Relocation} (keyed : topology.IsKeyed)
    (joint : IsJoint topology plan.moves)
    (fresh : ∀ move ∈ plan.moves, move.partition ≠ relocation.partition) :
    IsJoint topology (add topology plan relocation).moves ∧
      ∀ move ∈ (Plan.add topology plan relocation).moves,
        move ∈ plan.moves ∨ move.partition = relocation.partition := by
  have added := added_add topology plan relocation
  generalize Plan.add topology plan relocation = after at added ⊢
  cases added with
  | missing | served | full | dead => exact ⟨joint, fun move member => .inl member⟩
  | moved wanted unserved free live =>
    obtain ⟨⟨targetSite, target⟩, targetHost, down, unclaimed⟩ := of_targetSite? free
    obtain ⟨⟨sourceSite, source⟩, up, held, _⟩ := of_sourceSite? live
    have targetKey := keyed _ _ target
    have sourceKey := keyed _ _ source
    constructor
    · constructor
      · intro move member
        rcases List.mem_append.1 member with old | new
        · exact joint.feasible move old
        · rw [List.mem_singleton.1 new]
          constructor
          · exact ⟨_, targetKey ▸ target, targetHost, down⟩
          · exact ⟨_, sourceKey ▸ source, rfl, up, held⟩
      · rw [List.map_append, List.nodup_append]
        refine ⟨joint.partitions, List.pairwise_singleton .., ?_⟩
        intro known listed other new
        obtain ⟨move, member, same⟩ := List.mem_map.1 listed
        rw [List.mem_singleton.1 new, ← same]
        exact fresh move member
      · rw [List.map_append, List.nodup_append]
        refine ⟨joint.targets, List.pairwise_singleton .., ?_⟩
        intro known listed other new same
        rw [List.mem_singleton.1 new] at same
        subst same
        exact unclaimed listed
    · intro move member
      rcases List.mem_append.1 member with old | new
      · exact .inl old
      · exact .inr (by rw [List.mem_singleton.1 new])

theorem IsJoint.foldl_add {relocations : List Relocation} {plan : Plan} (keyed : topology.IsKeyed)
    (joint : IsJoint topology plan.moves) (distinct : (relocations.map (·.partition)).Nodup)
    (fresh : ∀ move ∈ plan.moves, ∀ relocation ∈ relocations,
      move.partition ≠ relocation.partition) :
    IsJoint topology (relocations.foldl (Plan.add topology) plan).moves := by
  induction relocations generalizing plan with
  | nil => exact joint
  | cons relocation relocations ih =>
    rw [List.map_cons, List.nodup_cons] at distinct
    have ⟨next, moves⟩ := joint.add keyed fun move member =>
      fresh move member relocation List.mem_cons_self
    apply ih next distinct.2
    intro move member later listed
    rcases moves move member with old | new
    · exact fresh move old later (List.mem_cons_of_mem _ listed)
    · intro same
      exact distinct.1 (List.mem_map.2 ⟨later, listed, same.symm.trans new⟩)

theorem isJoint_make (keyed : topology.IsKeyed) (current target : Placement) :
    IsJoint topology (make current target topology).moves := by
  have bare : IsJoint topology ({} : Plan).moves :=
    ⟨fun move member => absurd member List.not_mem_nil, List.nodup_nil, List.nodup_nil⟩
  exact bare.foldl_add keyed (nodup_movesTo current target)
    fun move member => absurd member List.not_mem_nil

/-- A relocation adds at most one move, and that into a site that is not yet claimed. No key of
the topology is relied on. -/
theorem claimed_add (topology : Topology) (plan : Plan) (relocation : Relocation) :
    (add topology plan relocation).claimed = plan.claimed ∨
      ∃ site, site ∉ plan.claimed ∧
        (add topology plan relocation).claimed = plan.claimed ++ [site] := by
  have added := added_add topology plan relocation
  generalize add topology plan relocation = after at added ⊢
  cases added with
  | missing | served | full | dead => exact .inl rfl
  | @moved _ target _ wanted unserved free live =>
    obtain ⟨_, _, _, unclaimed⟩ := of_targetSite? free
    refine .inr ⟨target.id, unclaimed, ?_⟩
    simp only [claimed, List.map_append, List.map_cons, List.map_nil]

theorem claimed_foldl_add (topology : Topology) (relocations : List Relocation) {plan : Plan}
    (distinct : plan.claimed.Nodup) :
    (relocations.foldl (add topology) plan).claimed.Nodup ∧
      (relocations.foldl (add topology) plan).claimed.length ≤
        plan.claimed.length + relocations.length := by
  induction relocations generalizing plan with
  | nil => exact ⟨distinct, Nat.le_refl _⟩
  | cons relocation relocations ih =>
    rw [List.foldl_cons, List.length_cons]
    rcases claimed_add topology plan relocation with same | ⟨site, fresh, grown⟩
    · have ⟨later, short⟩ := ih (same ▸ distinct)
      rw [same] at short
      exact ⟨later, by omega⟩
    · have apart : (plan.claimed ++ [site]).Nodup := by
        refine List.nodup_append.2 ⟨distinct, List.pairwise_singleton .., ?_⟩
        intro known listed other new same
        exact fresh (List.mem_singleton.1 new ▸ same ▸ listed)
      have ⟨later, short⟩ := ih (grown ▸ apart)
      rw [grown, List.length_append, List.length_singleton] at short
      exact ⟨later, by omega⟩

/-- The planned copies go into different sites, whatever topology they were planned on, and
there is at most one for each partition that changes its host. -/
theorem claimed_make (current target : Placement) (topology : Topology) :
    (make current target topology).claimed.Nodup ∧
      (make current target topology).claimed.length ≤ current.movedCount target := by
  have bare : ({} : Plan).claimed.Nodup := List.nodup_nil
  have none : ({} : Plan).claimed.length = 0 := rfl
  have planned := claimed_foldl_add topology (current.movesTo target) bare
  rwa [none, Nat.zero_add] at planned

end Plan

end Rebalance
