import Mathlib.Data.List.Nodup
import Rebalance.Proofs.Migration.Plan

/-!
A topology in the middle of a migration, seen from the one that was planned on. Moves map
their target sites, ended copies bring them up, and retired sites go down. At every point each
partition is served by its old site or its new one, and after the last retirement by exactly
one of them.
-/

namespace Rebalance

/-- Sites are filed under their identifiers, only the given partitions are served, and each of
them by exactly one site. -/
structure Topology.IsSettled (topology : Topology) (partitions : List PartitionId) : Prop where
  keyed : topology.IsKeyed
  known : ∀ site partition, topology.Serves site partition → partition ∈ partitions
  unique : ∀ partition ∈ partitions, ∃ site, topology.Serves site partition ∧
    ∀ other, topology.Serves other partition → other = site

theorem Topology.IsSettled.upSites_eq_one {topology : Topology} {partitions : List PartitionId}
    (settled : topology.IsSettled partitions) {partition : PartitionId}
    (member : partition ∈ partitions) : (topology.upSitesFor partition).length = 1 := by
  obtain ⟨site, serves, only⟩ := settled.unique partition member
  exact settled.keyed.upSites_eq_one serves only

def Topology.IsServed (topology : Topology) (partitions : List PartitionId) : Prop :=
  ∀ partition ∈ partitions,
    1 ≤ (topology.upSitesFor partition).length ∧ (topology.upSitesFor partition).length ≤ 2

theorem Topology.IsSettled.isServed {topology : Topology} {partitions : List PartitionId}
    (settled : topology.IsSettled partitions) : topology.IsServed partitions := by
  intro partition member
  have one := settled.upSites_eq_one member
  omega

/-- How `after` differs from `before` when the copies of `started` have been started, those of
`ended` have ended, and the sites of `retired` have been taken down. -/
structure Overlay (before after : Topology) (started ended : List Move)
    (retired : List SiteId) : Prop where
  target : ∀ move ∈ started, ∀ found, before.site? move.targetSite = some found →
    after.site? move.targetSite =
      some { found with partition := some move.partition, up := decide (move ∈ ended) }
  other : ∀ site, (∀ move ∈ started, move.targetSite ≠ site) →
    after.site? site =
      (before.site? site).map fun found => { found with up := found.up && site ∉ retired }

namespace Plan.IsJoint

variable {topology : Topology} {moves : List Move} {move other : Move}

theorem eq_of_partition (joint : IsJoint topology moves) (member : move ∈ moves)
    (memberToo : other ∈ moves) (same : move.partition = other.partition) : move = other :=
  List.inj_on_of_nodup_map joint.partitions member memberToo same

theorem eq_of_target (joint : IsJoint topology moves) (member : move ∈ moves)
    (memberToo : other ∈ moves) (same : move.targetSite = other.targetSite) : move = other :=
  List.inj_on_of_nodup_map joint.targets member memberToo same

theorem fresh_target (joint : IsJoint topology (moves ++ [move])) (member : other ∈ moves) :
    other.targetSite ≠ move.targetSite := by
  have targets := joint.targets
  rw [List.map_append, List.nodup_append] at targets
  exact targets.2.2 _ (List.mem_map_of_mem member) _ (List.mem_map_of_mem List.mem_cons_self)

theorem serves_source (joint : IsJoint topology moves) (member : move ∈ moves) :
    topology.Serves move.sourceSite move.partition := by
  obtain ⟨found, here, _, up, held⟩ := (joint.feasible move member).source
  exact ⟨found, here, up, held⟩

theorem not_serves_target (joint : IsJoint topology moves) (member : move ∈ moves)
    (partition : PartitionId) : ¬ topology.Serves move.targetSite partition := by
  intro serves
  obtain ⟨found, here, _, down⟩ := (joint.feasible move member).target
  obtain ⟨again, present, up, _⟩ := serves
  cases here.symm.trans present
  rw [down] at up
  cases up

theorem target_ne_source (joint : IsJoint topology moves) (member : move ∈ moves)
    (memberToo : other ∈ moves) : move.targetSite ≠ other.sourceSite := by
  intro same
  have serves := joint.serves_source memberToo
  rw [← same] at serves
  exact joint.not_serves_target member _ serves

end Plan.IsJoint

/-- Every copy has ended, and exactly the source sites are retired. -/
structure Overlay.IsComplete (started ended : List Move) (retired : List SiteId) : Prop where
  ended : ∀ move, move ∈ ended ↔ move ∈ started
  retired : ∀ site, site ∈ retired ↔ ∃ move ∈ started, move.sourceSite = site

namespace Overlay

variable {before after : Topology} {started ended : List Move} {retired : List SiteId}
variable {move : Move} {site : SiteId} {partition : PartitionId}

theorem refl (topology : Topology) : Overlay topology topology [] [] [] where
  target move member := absurd member List.not_mem_nil
  other site _ := by simp

theorem congr_ended (overlay : Overlay before after started ended retired) {endedToo : List Move}
    (same : ∀ move, move ∈ ended ↔ move ∈ endedToo) :
    Overlay before after started endedToo retired where
  target move member found here := by
    have shown := overlay.target move member found here
    simpa only [same] using shown
  other := overlay.other

/-- A move that goes with those started is still allowed, as long as no site is retired. -/
theorem isFeasible (overlay : Overlay before after started ended [])
    (joint : Plan.IsJoint before (started ++ [move])) : move.IsFeasible after := by
  have last : move ∈ started ++ [move] := List.mem_append_right _ List.mem_cons_self
  have untouched : ∀ site, (∀ other ∈ started, other.targetSite ≠ site) →
      after.site? site = before.site? site := by
    intro site away
    rw [overlay.other site away]
    simp
  constructor
  · rw [untouched _ fun other member => joint.fresh_target member]
    exact (joint.feasible move last).target
  · rw [untouched _ fun other member =>
      joint.target_ne_source (List.mem_append_left _ member) last]
    exact (joint.feasible move last).source

theorem start (overlay : Overlay before after started ended retired)
    (joint : Plan.IsJoint before (started ++ [move])) (earlier : ∀ other ∈ ended, other ∈ started) :
    Overlay before (after.assign move.targetSite move.partition) (started ++ [move]) ended
      retired := by
  have last : move ∈ started ++ [move] := List.mem_append_right _ List.mem_cons_self
  have fresh : ∀ other ∈ started, move.targetSite ≠ other.targetSite :=
    fun other member => (joint.fresh_target member).symm
  have pending : move ∉ ended := fun member => fresh move (earlier move member) rfl
  constructor
  · intro other member found here
    rw [Topology.site?_assign]
    rcases List.mem_append.1 member with old | new
    · rw [if_neg (Ne.symm (fresh other old))]
      exact overlay.target other old found here
    · cases List.mem_singleton.1 new
      obtain ⟨known, present, _, down⟩ := (joint.feasible move last).target
      cases here.symm.trans present
      rw [if_pos rfl, overlay.other _ fun other old => Ne.symm (fresh other old), here]
      simp [pending, down]
  · intro site away
    rw [Topology.site?_assign, if_neg (Ne.symm (away move last))]
    exact overlay.other site fun other old => away other (List.mem_append_left _ old)

theorem finish (overlay : Overlay before after started ended retired)
    (joint : Plan.IsJoint before started) (member : move ∈ started) :
    Overlay before
      ((after.assign move.targetSite move.partition).setUp move.targetSite true) started
      (move :: ended) retired := by
  constructor
  · intro other memberToo found here
    have shown := overlay.target other memberToo found here
    rw [Topology.site?_setUp, Topology.site?_assign, shown]
    by_cases same : other.targetSite = move.targetSite
    · have equal := joint.eq_of_target memberToo member same
      subst equal
      simp
    · have differs : other ≠ move := fun equal => same (congrArg _ equal)
      simp [same, differs]
  · intro site away
    rw [Topology.site?_setUp, Topology.site?_assign, if_neg (Ne.symm (away move member)),
      if_neg (Ne.symm (away move member))]
    exact overlay.other site away

theorem retire (overlay : Overlay before after started ended retired)
    (away : ∀ move ∈ started, move.targetSite ≠ site) :
    Overlay before (after.setUp site false) started ended (retired ++ [site]) := by
  constructor
  · intro move member found here
    rw [Topology.site?_setUp, if_neg (away move member)]
    exact overlay.target move member found here
  · intro other awayToo
    rw [Topology.site?_setUp, overlay.other other awayToo]
    by_cases same : other = site
    · subst same
      simp [Function.comp_def]
    · simp [same]

theorem keyed (overlay : Overlay before after started ended retired)
    (joint : Plan.IsJoint before started) (keyed : before.IsKeyed) : after.IsKeyed := by
  intro site found here
  by_cases targeted : ∃ move ∈ started, move.targetSite = site
  · obtain ⟨move, member, same⟩ := targeted
    obtain ⟨known, present, _⟩ := (joint.feasible move member).target
    rw [← same, overlay.target move member known present] at here
    cases here
    exact same ▸ keyed _ known present
  · have away : ∀ move ∈ started, move.targetSite ≠ site :=
      fun move member same => targeted ⟨move, member, same⟩
    rw [overlay.other site away] at here
    obtain ⟨known, present, rfl⟩ := Option.map_eq_some_iff.1 here
    exact keyed site known present

/-- A partition is served by the sites that served it before and were not retired, and by the
targets of the copies that have ended. -/
theorem serves_iff (overlay : Overlay before after started ended retired)
    (joint : Plan.IsJoint before started) (earlier : ∀ other ∈ ended, other ∈ started) :
    after.Serves site partition ↔
      (before.Serves site partition ∧ site ∉ retired) ∨
        ∃ move ∈ ended, move.targetSite = site ∧ move.partition = partition := by
  by_cases targeted : ∃ move ∈ started, move.targetSite = site
  · obtain ⟨move, member, same⟩ := targeted
    subst same
    obtain ⟨known, present, _⟩ := (joint.feasible move member).target
    have shown := overlay.target move member known present
    have idle := joint.not_serves_target member partition
    constructor
    · intro serves
      obtain ⟨found, here, up, held⟩ := serves
      cases shown.symm.trans here
      exact .inr ⟨move, of_decide_eq_true up, rfl, Option.some.inj held⟩
    · intro either
      rcases either with ⟨serves, _⟩ | ⟨other, done, sameToo, held⟩
      · exact absurd serves idle
      · have equal := joint.eq_of_target (earlier other done) member sameToo
        subst equal
        exact ⟨_, shown, decide_eq_true done, congrArg some held⟩
  · have away : ∀ move ∈ started, move.targetSite ≠ site :=
      fun move member same => targeted ⟨move, member, same⟩
    have shown := overlay.other site away
    constructor
    · intro serves
      obtain ⟨found, here, up, held⟩ := serves
      rw [shown] at here
      obtain ⟨known, present, rfl⟩ := Option.map_eq_some_iff.1 here
      rw [Bool.and_eq_true, decide_eq_true_eq] at up
      exact .inl ⟨⟨known, present, up.1, held⟩, up.2⟩
    · intro either
      rcases either with ⟨⟨known, present, up, held⟩, kept⟩ | ⟨other, done, same, _⟩
      · refine ⟨{ known with up := known.up && site ∉ retired }, ?_, ?_, held⟩
        · rw [shown, present]
          rfl
        · simp [up, kept]
      · exact absurd same (away other (earlier other done))

/-- While only the sources of ended copies are retired, every partition stays served, by its
old site or its new one. -/
theorem isServed {partitions : List PartitionId}
    (overlay : Overlay before after started ended retired) (joint : Plan.IsJoint before started)
    (earlier : ∀ other ∈ ended, other ∈ started) (settled : before.IsSettled partitions)
    (replaced : ∀ site ∈ retired, ∃ move ∈ ended, move.sourceSite = site) :
    after.IsServed partitions := by
  intro partition member
  have keyed := overlay.keyed joint settled.keyed
  have serves : ∀ site, after.Serves site partition ↔
      (before.Serves site partition ∧ site ∉ retired) ∨
        ∃ move ∈ ended, move.targetSite = site ∧ move.partition = partition :=
    fun _ => overlay.serves_iff joint earlier
  obtain ⟨home, servesHome, only⟩ := settled.unique partition member
  -- A home that is retired was replaced by the target of an ended copy; and beside the home
  -- there is no other site than that target.
  constructor
  · by_cases gone : home ∈ retired
    · obtain ⟨move, done, source⟩ := replaced home gone
      have held := joint.serves_source (earlier move done)
      rw [source] at held
      have target := (serves move.targetSite).2
        (.inr ⟨move, done, rfl, held.partition_eq servesHome⟩)
      exact keyed.one_le_upSites target
    · exact keyed.one_le_upSites ((serves _).2 (.inl ⟨servesHome, gone⟩))
  · by_cases moved : ∃ move ∈ ended, move.partition = partition
    · obtain ⟨move, done, same⟩ := moved
      apply keyed.upSites_le [home, move.targetSite]
      intro site here
      rcases (serves site).1 here with ⟨old, _⟩ | ⟨other, doneToo, target, held⟩
      · rw [only site old]
        exact List.mem_cons_self
      · have equal := joint.eq_of_partition (earlier other doneToo) (earlier move done)
          (held.trans same.symm)
        rw [← target, equal]
        exact List.mem_cons_of_mem _ List.mem_cons_self
    · apply Nat.le_trans (keyed.upSites_le [home] _) (Nat.le_succ 1)
      intro site here
      rcases (serves site).1 here with ⟨old, _⟩ | ⟨other, done, _, held⟩
      · rw [only site old]
        exact List.mem_cons_self
      · exact absurd ⟨other, done, held⟩ moved

section Complete

variable (overlay : Overlay before after started ended retired)
variable (joint : Plan.IsJoint before started) (complete : IsComplete started ended retired)
include overlay joint complete

theorem serves_iff_of_replaced (member : move ∈ started) :
    after.Serves site move.partition ↔
      (before.Serves site move.partition ∧ site ≠ move.sourceSite) ∨ site = move.targetSite := by
  rw [overlay.serves_iff joint fun other done => (complete.ended other).1 done]
  constructor
  · intro either
    rcases either with ⟨old, kept⟩ | ⟨other, done, target, held⟩
    · refine .inl ⟨old, fun same => kept ?_⟩
      exact (complete.retired site).2 ⟨move, member, same.symm⟩
    · have equal := joint.eq_of_partition ((complete.ended other).1 done) member held
      exact .inr (equal ▸ target.symm)
  · intro either
    rcases either with ⟨old, apart⟩ | here
    · refine .inl ⟨old, fun gone => apart ?_⟩
      obtain ⟨other, memberToo, same⟩ := (complete.retired site).1 gone
      have held := (joint.serves_source memberToo).partition_eq (same ▸ old)
      rw [← same, joint.eq_of_partition memberToo member held]
    · exact .inr ⟨move, (complete.ended move).2 member, here.symm, rfl⟩

/-- A moved partition that had one up site ends up served by the target alone. -/
theorem serves_iff_of_moved (settled : ∃ home, ∀ other, before.Serves other move.partition →
    other = home) (member : move ∈ started) :
    after.Serves site move.partition ↔ site = move.targetSite := by
  rw [overlay.serves_iff_of_replaced joint complete member]
  refine or_iff_right fun old => old.2 ?_
  obtain ⟨home, only⟩ := settled
  exact (only site old.1).trans (only _ (joint.serves_source member)).symm

theorem site?_iff_of_kept (kept : ∀ move ∈ started, move.partition ≠ partition) {found : Site} :
    (after.site? site = some found ∧ found.up = true ∧ found.partition = some partition) ↔
      before.site? site = some found ∧ found.up = true ∧ found.partition = some partition := by
  by_cases targeted : ∃ move ∈ started, move.targetSite = site
  · obtain ⟨move, member, target⟩ := targeted
    subst target
    obtain ⟨known, present, _, down⟩ := (joint.feasible move member).target
    rw [overlay.target move member known present, present]
    constructor
    · intro shown
      obtain ⟨here, _, held⟩ := shown
      cases here
      exact absurd (Option.some.inj held) (kept move member)
    · intro shown
      obtain ⟨here, up, _⟩ := shown
      cases here
      rw [down] at up
      cases up
  · rw [overlay.other site fun move member target => targeted ⟨move, member, target⟩]
    cases present : before.site? site with
    | none => simp
    | some known =>
      by_cases gone : site ∈ retired
      · obtain ⟨move, member, source⟩ := (complete.retired site).1 gone
        obtain ⟨again, here, _, _, held⟩ := (joint.feasible move member).source
        rw [source, present] at here
        cases here
        constructor
        · intro shown
          obtain ⟨here, up, _⟩ := shown
          cases here
          simp [gone] at up
        · intro shown
          obtain ⟨here, _, heldToo⟩ := shown
          cases here
          exact absurd (Option.some.inj (held.symm.trans heldToo)) (kept move member)
      · simp [gone]

theorem serves_iff_of_kept (kept : ∀ move ∈ started, move.partition ≠ partition) :
    after.Serves site partition ↔ before.Serves site partition :=
  exists_congr fun _ => overlay.site?_iff_of_kept joint complete kept

theorem settled {partitions : List PartitionId} (settled : before.IsSettled partitions) :
    after.IsSettled partitions where
  keyed := overlay.keyed joint settled.keyed
  known site partition serves := by
    have earlier := fun other => (complete.ended other).1
    rcases (overlay.serves_iff joint earlier).1 serves with ⟨old, _⟩ | ⟨move, done, _, held⟩
    · exact settled.known site partition old
    · exact held ▸ settled.known _ _ (joint.serves_source (earlier move done))
  unique partition member := by
    obtain ⟨home, serves, only⟩ := settled.unique partition member
    by_cases moved : ∃ move ∈ started, move.partition = partition
    · obtain ⟨move, memberToo, rfl⟩ := moved
      have target : ∀ site, after.Serves site move.partition ↔ site = move.targetSite :=
        fun _ => overlay.serves_iff_of_moved joint complete ⟨home, only⟩ memberToo
      exact ⟨move.targetSite, (target _).2 rfl, fun other => (target other).1⟩
    · have kept : ∀ move ∈ started, move.partition ≠ partition :=
        fun move member equal => moved ⟨move, member, equal⟩
      have old : ∀ site, after.Serves site partition ↔ before.Serves site partition :=
        fun _ => overlay.serves_iff_of_kept joint complete kept
      exact ⟨home, (old home).2 serves, fun other here => only other ((old other).1 here)⟩

theorem hostOf_moved {partitions : List PartitionId} (settled : before.IsSettled partitions)
    (member : move ∈ started) :
    after.placement.hostOf move.partition = some move.targetHost := by
  obtain ⟨home, _, only⟩ := settled.unique _ (settled.known _ _ (joint.serves_source member))
  have target : ∀ site, after.Serves site move.partition ↔ site = move.targetSite :=
    fun _ => overlay.serves_iff_of_moved joint complete ⟨home, only⟩ member
  obtain ⟨found, here, host, _⟩ := (joint.feasible move member).target
  have shown := overlay.target move member found here
  rw [(overlay.keyed joint settled.keyed).hostOf_placement_of_unique shown
    ((target _).2 rfl) fun other => (target other).1]
  exact congrArg some host

theorem hostOf_kept (keyed : before.IsKeyed)
    (kept : ∀ move ∈ started, move.partition ≠ partition) :
    after.placement.hostOf partition = before.placement.hostOf partition := by
  rw [Topology.hostOf_placement, Topology.hostOf_placement]
  congr 2
  apply (overlay.keyed joint keyed).upSitesFor_congr keyed
  intro found
  rw [Topology.mem_upSitesFor, Topology.mem_upSitesFor]
  exact exists_congr fun site => overlay.site?_iff_of_kept joint complete kept

end Complete

end Overlay

end Rebalance
