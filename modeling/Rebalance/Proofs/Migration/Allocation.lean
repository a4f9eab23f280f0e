import Rebalance.Proofs.Cluster.Layout
import Rebalance.Proofs.Migration.Plan

/-!
How a plan divides the partitions that change their host. Each of them is copied, skipped, or
served on the wanted host already, one by one in ascending order; a copy gets the best target
site that no earlier copy has taken, and a skip has its reason in what was left.
-/

namespace Rebalance

/-- Of two sites that a partition may be copied into, the one to be taken: a site that is mapped
to the partition comes before a spare one, and that before any other. -/
inductive TargetBefore (partition : PartitionId) (site other : Site) : Prop where
  | mapped (here : site.partition = some partition) (there : other.partition ≠ some partition)
  | spare (here : site.partition = none)
      (there : ∃ held, other.partition = some held ∧ held ≠ partition)
  | lower (same : (site.partition = some partition ↔ other.partition = some partition) ∧
        (site.partition = none ↔ other.partition = none))
      (number : site.id ≤ other.id)

/-- Of two sites that a partition may be copied from, the one to be taken: a site on the present
host comes first. -/
inductive SourceBefore (present : HostId) (site other : Site) : Prop where
  | present (here : site.host = present) (there : other.host ≠ present)
  | lower (same : site.host = present ↔ other.host = present) (number : site.id ≤ other.id)

namespace Plan

open Placement (ascending_movesTo nodup_movesTo)

theorem leastBy_eq_none {β : Type} {rank : β → Nat} {bs : List β} :
    leastBy rank bs = none ↔ bs = [] := by
  cases bs with
  | nil => exact ⟨fun _ => rfl, fun _ => rfl⟩
  | cons first rest =>
    refine iff_of_false ?_ (List.cons_ne_nil first rest)
    rw [leastBy]
    split
    · split
      · exact Option.some_ne_none _
      · exact Option.some_ne_none _
    · exact Option.some_ne_none _

def IsLeast (rank : Site → Nat) (site other : Site) : Prop :=
  rank site < rank other ∨ (rank site = rank other ∧ site.id ≤ other.id)

theorem IsLeast.number {rank : Site → Nat} {site other : Site} (least : IsLeast rank site other)
    (same : rank site = rank other) : site.id ≤ other.id :=
  (least.resolve_left (Nat.not_lt_of_le (Nat.le_of_eq same.symm))).2

theorem IsLeast.rank_le {rank : Site → Nat} {site other : Site} (least : IsLeast rank site other) :
    rank site ≤ rank other :=
  least.elim Nat.le_of_lt fun tie => Nat.le_of_eq tie.1

/-- The first site of least rank, where the sites are listed by number. -/
theorem isLeast_of_leastBy {rank : Site → Nat} {sites : List Site} {site : Site}
    (found : leastBy rank sites = some site)
    (ascending : sites.Pairwise fun first second => first.id < second.id) {other : Site}
    (listed : other ∈ sites) : IsLeast rank site other := by
  induction sites generalizing site with
  | nil => cases listed
  | cons first rest ih =>
    rw [List.pairwise_cons] at ascending
    rw [leastBy] at found
    split at found
    · next least here =>
      -- The first element yields only to one of lower rank, so it wins a tie with any later one.
      have later := fun member => ih here ascending.2 member
      split at found
      · next below =>
        cases found
        rcases List.mem_cons.1 listed with rfl | member
        · exact .inl below
        · exact later member
      · next notBelow =>
        cases found
        rcases List.mem_cons.1 listed with rfl | member
        · exact .inr ⟨rfl, Nat.le_refl _⟩
        · have order := Nat.le_trans (Nat.le_of_not_lt notBelow) (later member).rank_le
          exact (Nat.lt_or_eq_of_le order).imp id fun tie =>
            ⟨tie, Nat.le_of_lt (ascending.1 other member)⟩
    · next empty =>
      cases found
      rw [leastBy_eq_none.1 empty, List.mem_singleton] at listed
      exact .inr ⟨congrArg rank listed.symm, Nat.le_of_eq (congrArg Site.id listed.symm)⟩

variable {topology : Topology} {claimed : List SiteId} {host present : HostId}
variable {partition : PartitionId} {site : Site}

theorem mem_downSitesOn :
    site ∈ topology.downSitesOn host ↔
      (∃ id, topology.site? id = some site) ∧ site.host = host ∧ site.up = false := by
  rw [Topology.downSitesOn, List.mem_filter, Topology.sitesOnHost, List.mem_filter,
    Topology.mem_siteList, decide_eq_true_eq, Bool.not_eq_true', and_assoc]

theorem targetRank_cases (partition : PartitionId) (site : Site) :
    (site.partition = some partition ∧ targetRank partition site = 0) ∨
      (site.partition = none ∧ targetRank partition site = 1) ∨
        ∃ held, site.partition = some held ∧ held ≠ partition ∧ targetRank partition site = 2 := by
  unfold targetRank
  cases mapped : site.partition with
  | none => exact .inr (.inl ⟨rfl, rfl⟩)
  | some held =>
    by_cases same : held = partition
    · exact .inl ⟨congrArg some same, if_pos same⟩
    · exact .inr (.inr ⟨held, rfl, same, if_neg same⟩)

theorem targetBefore_of_isLeast {other : Site}
    (least : IsLeast (targetRank partition) site other) : TargetBefore partition site other := by
  have order := least.rank_le
  rcases targetRank_cases partition site with ⟨here, own⟩ | ⟨here, own⟩ | ⟨held, here, differs, own⟩
  · rcases targetRank_cases partition other with ⟨there, its⟩ | ⟨there, _⟩ | ⟨_, there, apart, _⟩
    · exact .lower (by simp [here, there]) (least.number (own.trans its.symm))
    · exact .mapped here (by simp [there])
    · exact .mapped here (by simp [there, apart])
  · rcases targetRank_cases partition other with
      ⟨_, its⟩ | ⟨there, its⟩ | ⟨heldToo, there, apart, _⟩
    · omega
    · exact .lower (by simp [here, there]) (least.number (own.trans its.symm))
    · exact .spare here ⟨heldToo, there, apart⟩
  · rcases targetRank_cases partition other with ⟨_, its⟩ | ⟨_, its⟩ | ⟨_, there, apart, its⟩
    · omega
    · omega
    · exact .lower (by simp [here, there, differs, apart]) (least.number (own.trans its.symm))

theorem sourceBefore_of_isLeast {other : Site}
    (least : IsLeast (sourceRank present) site other) : SourceBefore present site other := by
  have order := least.rank_le
  by_cases here : site.host = present
  · by_cases there : other.host = present
    · exact .lower (iff_of_true here there) (least.number (by simp [sourceRank, here, there]))
    · exact .present here there
  · by_cases there : other.host = present
    · simp [sourceRank, here, there] at order
    · exact .lower (iff_of_false here there) (least.number (by simp [sourceRank, here, there]))

/-- The target site is taken before every other down site of its host that is not claimed. -/
theorem targetBefore_of_targetSite? (keyed : topology.IsKeyed)
    (found : targetSite? topology claimed host partition = some site) {id : SiteId} {other : Site}
    (there : topology.site? id = some other) (on : other.host = host) (down : other.up = false)
    (free : id ∉ claimed) : TargetBefore partition site other := by
  have ascending : (topology.downSitesOn host).Pairwise fun first second =>
      first.id < second.id := (keyed.ascending_siteList.filter _).filter _
  have listed : other ∈ (topology.downSitesOn host).filter fun site =>
      !claimed.contains site.id := by
    rw [List.mem_filter, mem_downSitesOn, keyed _ _ there]
    exact ⟨⟨⟨id, there⟩, on, down⟩, by simpa using free⟩
  exact targetBefore_of_isLeast (isLeast_of_leastBy found (ascending.filter _) listed)

/-- A partition has no target site where every down site of the host is claimed. -/
theorem claimed_of_targetSite?_eq_none (keyed : topology.IsKeyed)
    (none : targetSite? topology claimed host partition = none) {id : SiteId}
    (there : topology.site? id = some site) (on : site.host = host) (down : site.up = false) :
    id ∈ claimed := by
  have empty := leastBy_eq_none.1 none
  by_contra free
  have listed : site ∈ (topology.downSitesOn host).filter fun site =>
      !claimed.contains site.id := by
    rw [List.mem_filter, mem_downSitesOn, keyed _ _ there]
    exact ⟨⟨⟨id, there⟩, on, down⟩, by simpa using free⟩
  rw [empty] at listed
  cases listed

theorem sourceBefore_of_sourceSite? (keyed : topology.IsKeyed)
    (found : sourceSite? topology present host partition = some site) {id : SiteId} {other : Site}
    (there : topology.site? id = some other) (up : other.up = true)
    (held : other.partition = some partition) (off : other.host ≠ host) :
    SourceBefore present site other := by
  have listed : other ∈ (topology.upSitesFor partition).filter fun site => site.host != host :=
    List.mem_filter.2 ⟨Topology.mem_upSitesFor.2 ⟨id, there, up, held⟩, bne_iff_ne.2 off⟩
  exact sourceBefore_of_isLeast
    (isLeast_of_leastBy found ((keyed.ascending_upSitesFor partition).filter _) listed)

/-- A partition has no source site where it is served on no other host. -/
theorem host_of_sourceSite?_eq_none (none : sourceSite? topology present host partition = none)
    {id : SiteId} (there : topology.site? id = some site) (up : site.up = true)
    (held : site.partition = some partition) : site.host = host := by
  have empty := leastBy_eq_none.1 none
  by_contra off
  have listed : site ∈ (topology.upSitesFor partition).filter fun site => site.host != host :=
    List.mem_filter.2 ⟨Topology.mem_upSitesFor.2 ⟨id, there, up, held⟩, bne_iff_ne.2 off⟩
  rw [empty] at listed
  cases listed

def ServedOn (topology : Topology) (host : HostId) (partition : PartitionId) : Prop :=
  ∃ id site, topology.site? id = some site ∧ site.host = host ∧ site.up = true ∧
    site.partition = some partition

theorem isSome_liveSiteOn :
    (topology.liveSiteOn host partition).isSome = true ↔ ServedOn topology host partition := by
  rw [Topology.liveSiteOn, Option.isSome_map, List.find?_isSome]
  constructor
  · intro found
    obtain ⟨site, listed, on⟩ := found
    obtain ⟨id, here, up, held⟩ := Topology.mem_upSitesFor.1 listed
    exact ⟨id, site, here, of_decide_eq_true on, up, held⟩
  · intro served
    obtain ⟨id, site, here, on, up, held⟩ := served
    exact ⟨site, Topology.mem_upSitesFor.2 ⟨id, here, up, held⟩, decide_eq_true on⟩

/-- The move that a relocation calls for when some target sites are claimed. -/
structure Moves (topology : Topology) (claimed : List SiteId) (relocation : Relocation)
    (move : Move) : Prop where
  partition : move.partition = relocation.partition
  wanted : relocation.target = some move.targetHost
  target : ∃ site, targetSite? topology claimed move.targetHost move.partition = some site ∧
    site.id = move.targetSite
  source : ∃ site, sourceSite? topology relocation.source move.targetHost move.partition =
    some site ∧ site.id = move.sourceSite ∧ site.host = move.sourceHost

/-- The reason for which a relocation is skipped when some target sites are claimed. -/
inductive Skips (topology : Topology) (claimed : List SiteId) (relocation : Relocation) :
    Skip → Prop where
  | missing (absent : relocation.target = none) :
      Skips topology claimed relocation ⟨relocation.partition, none, .notInTarget⟩
  | full {host : HostId} (wanted : relocation.target = some host)
      (taken : targetSite? topology claimed host relocation.partition = none) :
      Skips topology claimed relocation ⟨relocation.partition, some host, .noTargetSite⟩
  | dead {host : HostId} (wanted : relocation.target = some host)
      (unserved : ¬ ServedOn topology host relocation.partition)
      (lost : sourceSite? topology relocation.source host relocation.partition = none) :
      Skips topology claimed relocation ⟨relocation.partition, some host, .noSourceSite⟩

def isSettled (topology : Topology) (relocation : Relocation) : Bool :=
  relocation.target.any fun host => (topology.liveSiteOn host relocation.partition).isSome

/-- A plan that deals with these relocations, which came by partition. -/
structure Accounts (topology : Topology) (relocations : List Relocation) (plan : Plan) :
    Prop where
  parts : (plan.moves.map (·.partition) ++ (plan.skipped.map (·.partition) ++
    (relocations.filter (isSettled topology)).map (·.partition))).Perm
      (relocations.map (·.partition))
  moved : (plan.moves.map (·.partition)).Sublist (relocations.map (·.partition))
  passed : (plan.skipped.map (·.partition)).Sublist (relocations.map (·.partition))
  moves : ∀ earlier move later, plan.moves = earlier ++ move :: later →
    ∃ relocation ∈ relocations,
      Moves topology (earlier.map (·.targetSite)) relocation move
  skips : ∀ skip ∈ plan.skipped, ∃ relocation ∈ relocations, ∃ earlier : List Move,
    earlier.Sublist plan.moves ∧ (∀ move ∈ earlier, move.partition < skip.partition) ∧
      Skips topology (earlier.map (·.targetSite)) relocation skip

theorem accounts_nil (topology : Topology) : Accounts topology [] {} where
  parts := .refl _
  moved := .slnil
  passed := .slnil
  moves earlier move later split := absurd split (by simp)
  skips skip member := absurd member List.not_mem_nil

variable {relocations : List Relocation} {relocation : Relocation} {plan : Plan}

theorem Accounts.settle (accounts : Accounts topology relocations plan)
    (settled : isSettled topology relocation = true) :
    Accounts topology (relocations ++ [relocation]) plan where
  parts := by
    rw [List.filter_append, List.filter_singleton, settled, List.map_append, List.map_append,
      ← List.append_assoc, ← List.append_assoc, List.append_assoc (plan.moves.map _)]
    exact accounts.parts.append_right _
  moved := List.map_append ▸ accounts.moved.trans (List.sublist_append_left _ _)
  passed := List.map_append ▸ accounts.passed.trans (List.sublist_append_left _ _)
  moves earlier move later split := by
    obtain ⟨known, member, called⟩ := accounts.moves earlier move later split
    exact ⟨known, List.mem_append_left _ member, called⟩
  skips skip member := by
    obtain ⟨known, listed, reason⟩ := accounts.skips skip member
    exact ⟨known, List.mem_append_left _ listed, reason⟩

theorem Accounts.skip (accounts : Accounts topology relocations plan)
    (unsettled : isSettled topology relocation = false)
    (later : ∀ known ∈ relocations, known.partition < relocation.partition)
    {target : Option HostId} {reason : SkipReason}
    (due : Skips topology plan.claimed relocation ⟨relocation.partition, target, reason⟩) :
    Accounts topology (relocations ++ [relocation])
      (plan.skip relocation.partition target reason) where
  parts := by
    rw [List.filter_append, List.filter_singleton, unsettled]
    simp only [Plan.skip, List.map_append, List.map_singleton, cond_false,
      List.append_nil, List.append_assoc, List.singleton_append]
    refine List.Perm.trans ?_ (accounts.parts.append_right [relocation.partition])
    rw [List.append_assoc, List.append_assoc]
    refine (List.Perm.append_left _ (List.Perm.append_left _ ?_))
    exact (List.perm_append_singleton _ _).symm
  moved := List.map_append ▸ accounts.moved.trans (List.sublist_append_left _ _)
  passed := by
    simp only [Plan.skip, List.map_append]
    exact accounts.passed.append (List.Sublist.refl _)
  moves earlier move rest split := by
    obtain ⟨known, member, called⟩ := accounts.moves earlier move rest split
    exact ⟨known, List.mem_append_left _ member, called⟩
  skips skip member := by
    rcases List.mem_append.1 member with old | new
    · obtain ⟨known, listed, reason⟩ := accounts.skips skip old
      exact ⟨known, List.mem_append_left _ listed, reason⟩
    · rw [List.mem_singleton.1 new]
      refine ⟨relocation, List.mem_append_right _ List.mem_cons_self, plan.moves,
        List.Sublist.refl _, ?_, due⟩
      intro move planned
      have source := accounts.moved.subset (List.mem_map_of_mem planned)
      obtain ⟨known, listed, same⟩ := List.mem_map.1 source
      exact same ▸ later known listed

/-- A move that is added goes to a site that none of those before it has claimed. -/
theorem Accounts.move (accounts : Accounts topology relocations plan)
    (unsettled : isSettled topology relocation = false) {move : Move}
    (called : Moves topology plan.claimed relocation move) :
    Accounts topology (relocations ++ [relocation])
      { plan with moves := plan.moves ++ [move] } where
  parts := by
    rw [List.filter_append, List.filter_singleton, unsettled]
    simp only [List.map_append, List.map_singleton, cond_false,
      List.append_nil, List.append_assoc, List.singleton_append, called.partition]
    exact List.perm_middle.trans
      ((accounts.parts.cons relocation.partition).trans (List.perm_append_singleton _ _).symm)
  moved := by
    simp only [List.map_append, List.map_singleton, called.partition]
    exact accounts.moved.append (List.Sublist.refl _)
  passed := List.map_append ▸ accounts.passed.trans (List.sublist_append_left _ _)
  moves earlier other later split := by
    rcases List.eq_nil_or_concat later with rfl | ⟨before, last, rfl⟩
    · obtain ⟨rfl, same⟩ := List.append_inj' split rfl
      cases same
      exact ⟨relocation, List.mem_append_right _ List.mem_cons_self, called⟩
    · rw [List.concat_eq_append, ← List.cons_append, ← List.append_assoc] at split
      obtain ⟨known, member, calledToo⟩ :=
        accounts.moves earlier other before (List.append_inj' split rfl).1
      exact ⟨known, List.mem_append_left _ member, calledToo⟩
  skips skip member := by
    obtain ⟨known, listed, earlier, before, below, reason⟩ := accounts.skips skip member
    exact ⟨known, List.mem_append_left _ listed, earlier,
      before.trans (List.sublist_append_left _ _), below, reason⟩

/-- One more relocation, of a partition above all those before it. -/
theorem Accounts.add (accounts : Accounts topology relocations plan)
    (later : ∀ known ∈ relocations, known.partition < relocation.partition) :
    Accounts topology (relocations ++ [relocation]) (Plan.add topology plan relocation) := by
  have added := added_add topology plan relocation
  generalize Plan.add topology plan relocation = after at added ⊢
  cases added with
  | missing absent =>
    exact accounts.skip (by simp [isSettled, absent]) later (.missing absent)
  | served wanted live => exact accounts.settle (by simp [isSettled, wanted, live])
  | full wanted unserved taken =>
    exact accounts.skip (by simp [isSettled, wanted, unserved]) later (.full wanted taken)
  | dead wanted unserved free lost =>
    refine accounts.skip (by simp [isSettled, wanted, unserved]) later (.dead wanted ?_ lost)
    rw [← isSome_liveSiteOn, unserved]
    exact Bool.false_ne_true
  | moved wanted unserved free live =>
    exact accounts.move (by simp [isSettled, wanted, unserved])
      ⟨rfl, wanted, ⟨_, free, rfl⟩, ⟨_, live, rfl, rfl⟩⟩

theorem Accounts.foldl_add {earlier : List Relocation}
    (accounts : Accounts topology earlier plan) (relocations : List Relocation)
    (ascending : ((earlier ++ relocations).map (·.partition)).Pairwise (· < ·)) :
    Accounts topology (earlier ++ relocations) (relocations.foldl (Plan.add topology) plan) := by
  induction relocations generalizing earlier plan with
  | nil =>
    rw [List.append_nil]
    exact accounts
  | cons relocation relocations ih =>
    have later (known : Relocation) (member : known ∈ earlier) :
        known.partition < relocation.partition := by
      rw [List.map_append, List.pairwise_append] at ascending
      exact ascending.2.2 _ (List.mem_map_of_mem member) _ List.mem_cons_self
    rw [List.append_cons] at ascending ⊢
    exact ih (accounts.add later) ascending

/-- A plan deals with all that differs between the two placements. -/
theorem accounts_make (current target : Placement) (topology : Topology) :
    Accounts topology (current.movesTo target) (make current target topology) :=
  (accounts_nil topology).foldl_add _ (ascending_movesTo current target)

variable {current target : Placement}

/-- The relocations that need no copy are of partitions served on the wanted host. -/
theorem mem_settled :
    partition ∈ ((current.movesTo target).filter (isSettled topology)).map (·.partition) ↔
      current.Differs target partition ∧
        ∃ host, target.byPartition.get? partition = some host ∧
          ServedOn topology host partition := by
  simp only [Placement.differs_iff, List.mem_map, List.mem_filter, isSettled, Option.any_eq_true,
    isSome_liveSiteOn]
  constructor
  · intro settled
    obtain ⟨relocation, ⟨listed, host, wanted, served⟩, rfl⟩ := settled
    have here := (Placement.mem_movesTo.1 listed).2.1
    exact ⟨⟨relocation, listed, rfl⟩, host, here.trans wanted, served⟩
  · intro settled
    obtain ⟨⟨relocation, listed, rfl⟩, host, wanted, served⟩ := settled
    have here := (Placement.mem_movesTo.1 listed).2.1
    exact ⟨relocation, ⟨listed, host, here.symm.trans wanted, served⟩, rfl⟩

section
variable (current target : Placement) (topology : Topology)

theorem perm_parts : ((make current target topology).moves.map (·.partition) ++
    ((make current target topology).skipped.map (·.partition) ++
      ((current.movesTo target).filter (isSettled topology)).map (·.partition))).Perm
        ((current.movesTo target).map (·.partition)) :=
  (accounts_make current target topology).parts

/-- Every partition that differs is moved, skipped, or served on the wanted host. -/
theorem differs_iff_mem : current.Differs target partition ↔
    partition ∈ (make current target topology).moves.map (·.partition) ∨
      partition ∈ (make current target topology).skipped.map (·.partition) ∨
        current.Differs target partition ∧
          ∃ host, target.byPartition.get? partition = some host ∧
            ServedOn topology host partition := by
  rw [← mem_settled, ← List.mem_append, ← List.mem_append,
    (perm_parts current target topology).mem_iff, Placement.differs_iff, List.mem_map]

theorem disjoint_parts :
    ((make current target topology).moves.map (·.partition)).Disjoint
      ((make current target topology).skipped.map (·.partition)) := by
  have once := (perm_parts current target topology).nodup_iff.2 (nodup_movesTo current target)
  intro partition moved skipped
  exact (List.disjoint_of_nodup_append once) moved (List.mem_append_left _ skipped)

end

/-- A partition that is served on the wanted host is neither moved nor skipped. -/
theorem not_mem_of_servedOn (wanted : target.byPartition.get? partition = some host)
    (served : ServedOn topology host partition) :
    partition ∉ (make current target topology).moves.map (·.partition) ∧
      partition ∉ (make current target topology).skipped.map (·.partition) := by
  have once := (perm_parts current target topology).nodup_iff.2 (nodup_movesTo current target)
  have settled (differs : current.Differs target partition) :
      partition ∈ ((current.movesTo target).filter (isSettled topology)).map (·.partition) :=
    mem_settled.2 ⟨differs, host, wanted, served⟩
  constructor
  · intro moved
    have member := settled ((differs_iff_mem current target topology).2 (.inl moved))
    exact (List.disjoint_of_nodup_append once) moved (List.mem_append_right _ member)
  · intro skipped
    have member := settled ((differs_iff_mem current target topology).2 (.inr (.inl skipped)))
    exact (List.disjoint_of_nodup_append (List.nodup_append.1 once).2.1) skipped member

theorem wanted_of_mem_moves {move : Move}
    (member : move ∈ (make current target topology).moves) :
    target.byPartition.get? move.partition = some move.targetHost := by
  obtain ⟨earlier, later, split⟩ := List.append_of_mem member
  obtain ⟨relocation, listed, called⟩ :=
    (accounts_make current target topology).moves earlier move later split
  rw [called.partition, (Placement.mem_movesTo.1 listed).2.1, called.wanted]

theorem wanted_of_mem_skipped {skip : Skip}
    (member : skip ∈ (make current target topology).skipped) :
    target.byPartition.get? skip.partition = skip.targetHost := by
  obtain ⟨relocation, listed, _, _, _, skipped⟩ :=
    (accounts_make current target topology).skips skip member
  have wanted := (Placement.mem_movesTo.1 listed).2.1
  cases skipped with
  | missing absent => exact wanted.trans absent
  | full sought taken => exact wanted.trans sought
  | dead sought unserved lost => exact wanted.trans sought

end Plan

/-- A move between the best sites there are when some target sites are claimed. -/
structure Move.IsBest (current target : Placement) (topology : Topology) (claimed : List SiteId)
    (move : Move) : Prop where
  wanted : target.byPartition.get? move.partition = some move.targetHost
  target : ∃ site, topology.site? move.targetSite = some site ∧ site.host = move.targetHost ∧
    site.up = false ∧ move.targetSite ∉ claimed ∧
      ∀ id other, topology.site? id = some other → other.host = move.targetHost →
        other.up = false → id ∉ claimed → TargetBefore move.partition site other
  source : ∃ present site, current.byPartition.get? move.partition = some present ∧
    topology.site? move.sourceSite = some site ∧ site.host = move.sourceHost ∧
      site.up = true ∧ site.partition = some move.partition ∧ site.host ≠ move.targetHost ∧
        ∀ id other, topology.site? id = some other → other.up = true →
          other.partition = some move.partition → other.host ≠ move.targetHost →
            SourceBefore present site other

/-- What a skip says is so: the target lacks the partition, every down site of the wanted host
was claimed by a move of an earlier partition, or the partition has no up site. -/
def Skip.IsDue (target : Placement) (topology : Topology) (moves : List Move) (skip : Skip) :
    Prop :=
  target.byPartition.get? skip.partition = skip.targetHost ∧
    match skip.reason with
    | .notInTarget => skip.targetHost = none
    | .noTargetSite => ∃ host, skip.targetHost = some host ∧
        ∀ id site, topology.site? id = some site → site.host = host → site.up = false →
          ∃ move ∈ moves, move.partition < skip.partition ∧ move.targetSite = id
    | .noSourceSite => ∃ host, skip.targetHost = some host ∧
        ∀ id, ¬ topology.Serves id skip.partition

/-- A plan that divides the partitions that differ among its moves, its skips and those served
on the wanted host already, and deals with each as well as the sites allow. -/
structure Plan.IsAllocation (current target : Placement) (topology : Topology) (plan : Plan) :
    Prop where
  cover : ∀ partition, current.Differs target partition ↔
    partition ∈ plan.moves.map (·.partition) ∨ partition ∈ plan.skipped.map (·.partition) ∨
      current.Differs target partition ∧
        ∃ host, target.byPartition.get? partition = some host ∧
          ServedOn topology host partition
  ascending : (plan.moves.map (·.partition)).Pairwise (· < ·)
  skippedOnce : (plan.skipped.map (·.partition)).Pairwise (· < ·)
  disjoint : (plan.moves.map (·.partition)).Disjoint (plan.skipped.map (·.partition))
  unserved : ∀ partition host, target.byPartition.get? partition = some host →
    ServedOn topology host partition → partition ∉ plan.moves.map (·.partition) ∧
      partition ∉ plan.skipped.map (·.partition)
  best : ∀ earlier move later, plan.moves = earlier ++ move :: later →
    move.IsBest current target topology (earlier.map (·.targetSite))
  distinct : (plan.moves.map (·.targetSite)).Nodup
  apart : ∀ move ∈ plan.moves, ∀ other ∈ plan.moves, move.targetSite ≠ other.sourceSite
  due : ∀ skip ∈ plan.skipped, skip.IsDue target topology plan.moves

namespace Plan

open Placement (ascending_movesTo)

variable {topology : Topology} {current target : Placement} {relocation : Relocation}
variable {claimed : List SiteId} {move : Move} {skip : Skip} {moves earlier : List Move}

theorem Moves.isBest (called : Moves topology claimed relocation move) (keyed : topology.IsKeyed)
    (listed : relocation ∈ current.movesTo target) :
    move.IsBest current target topology claimed := by
  obtain ⟨here, wanted, _⟩ := Placement.mem_movesTo.1 listed
  obtain ⟨into, free, intoId⟩ := called.target
  obtain ⟨⟨intoKey, intoHere⟩, intoHost, down, unclaimed⟩ := of_targetSite? free
  obtain ⟨out, live, outId, outHost⟩ := called.source
  obtain ⟨⟨outKey, outHere⟩, up, held, off⟩ := of_sourceSite? live
  rw [← called.partition] at here wanted
  have intoSite : topology.site? move.targetSite = some into := by
    rw [← intoId, keyed _ _ intoHere, intoHere]
  have outSite : topology.site? move.sourceSite = some out := by
    rw [← outId, keyed _ _ outHere, outHere]
  constructor
  · exact wanted.trans called.wanted
  · refine ⟨into, intoSite, intoHost, down, intoId ▸ unclaimed, ?_⟩
    intro id other there on idle fresh
    exact targetBefore_of_targetSite? keyed free there on idle fresh
  · refine ⟨relocation.source, out, here, outSite, outHost, up, held, off, ?_⟩
    intro id other there serving mapped away
    exact sourceBefore_of_sourceSite? keyed live there serving mapped away

theorem Skips.isDue (skipped : Skips topology (earlier.map (·.targetSite)) relocation skip)
    (keyed : topology.IsKeyed) (listed : relocation ∈ current.movesTo target)
    (planned : earlier.Sublist moves) (below : ∀ move ∈ earlier, move.partition < skip.partition) :
    skip.IsDue target topology moves := by
  obtain ⟨_, wanted, _⟩ := Placement.mem_movesTo.1 listed
  cases skipped with
  | missing absent => exact ⟨wanted.trans absent, rfl⟩
  | @full host sought taken =>
    refine ⟨wanted.trans sought, host, rfl, fun id site here on down => ?_⟩
    have claimed := claimed_of_targetSite?_eq_none keyed taken here on down
    obtain ⟨move, member, same⟩ := List.mem_map.1 claimed
    exact ⟨move, planned.subset member, below move member, same⟩
  | @dead host sought unserved lost =>
    refine ⟨wanted.trans sought, host, rfl, fun id serves => ?_⟩
    obtain ⟨site, here, up, held⟩ := serves
    exact unserved ⟨id, site, here, host_of_sourceSite?_eq_none lost here up held, up, held⟩

/-- Whatever the two placements and the topology are, the plan divides the partitions that
differ, each move takes the best sites there are, and each skip has the reason it names. -/
theorem isAllocation_make (keyed : topology.IsKeyed) (current target : Placement) :
    IsAllocation current target topology (make current target topology) := by
  have accounts := accounts_make current target topology
  have joint := isJoint_make keyed current target
  have ascending := ascending_movesTo current target
  constructor
  · intro partition
    exact differs_iff_mem current target topology
  · exact ascending.sublist accounts.moved
  · exact ascending.sublist accounts.passed
  · exact disjoint_parts current target topology
  · intro partition host wanted served
    exact not_mem_of_servedOn wanted served
  · intro earlier move later split
    obtain ⟨relocation, member, called⟩ := accounts.moves earlier move later split
    exact called.isBest keyed member
  · exact joint.targets
  · intro move member other memberToo
    exact joint.target_ne_source member memberToo
  · intro skip member
    obtain ⟨relocation, known, earlier, planned, below, skipped⟩ := accounts.skips skip member
    exact skipped.isDue keyed known planned below

/-- Two hosts that exchange their partitions. The second host has one spare site, the first two
of which one is mapped to a partition that comes: three moves fit, and the fourth is skipped. -/
theorem isAllocation_make_exchange :
    let topology : Topology := .new [100, 200]
      [⟨1, 100, some 101, true⟩, ⟨2, 100, some 102, true⟩, ⟨3, 100, none, false⟩,
        ⟨4, 100, some 201, false⟩, ⟨5, 200, some 201, true⟩, ⟨6, 200, some 202, true⟩,
        ⟨7, 200, none, false⟩]
    let target : Placement := .ofPairs [(200, 101), (200, 102), (100, 201), (100, 202)]
    let plan := make topology.placement target topology
    plan.moves.map (fun move => (move.partition, move.targetSite)) =
        [(101, 7), (201, 4), (202, 3)] ∧
      plan.skipped = [⟨102, some 200, .noTargetSite⟩] ∧
        IsAllocation topology.placement target topology plan :=
  ⟨by decide +kernel, by decide +kernel, isAllocation_make (Topology.isKeyed_new _ _) _ _⟩

end Plan

end Rebalance
