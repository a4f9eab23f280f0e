import Mathlib.Data.List.Nodup
import Mathlib.Order.RelClasses
import Rebalance.Migration.Run

/-!
The books of a run. An acknowledgement counts once, for the outstanding move of its site, and
the sites to be retired are the sources of the acknowledged moves.
-/

namespace Rebalance.Run

section
variable {σ : Type} [Environment σ]

/-- The first move is booked if the cluster accepts it, and the others are handed on to what has
become of the cluster. -/
theorem dispatch_cons (run : Run) (move : Move) (moves : List Move) (environment : σ) :
    dispatch run (move :: moves) environment =
      dispatch
        (if (Environment.startMove move environment).1 then
          { run with outstanding := run.outstanding.insert move.targetSite move } else run)
        moves (Environment.startMove move environment).2 := by
  have handed : dispatch run (move :: moves) environment =
      moves.foldl dispatchMove (dispatchMove (run, environment) move) := rfl
  rw [handed]
  unfold dispatchMove dispatch
  simp only
  split
  · rfl
  · rfl

end

theorem acknowledge_of_unknown {run : Run} {site : SiteId}
    (unknown : run.outstanding.get? site = none) : run.acknowledge site = (.ignored, run) := by
  rw [acknowledge, unknown]

def acknowledged (run : Run) (move : Move) (site : SiteId) : Run :=
  { outstanding := run.outstanding.erase site, completed := run.completed ++ [move] }

theorem acknowledge_of_known {run : Run} {site : SiteId} {move : Move}
    (known : run.outstanding.get? site = some move) :
    run.acknowledge site =
      (if (run.acknowledged move site).isComplete then .complete
        else .progress (run.outstanding.erase site).size, run.acknowledged move site) := by
  rw [acknowledge, known]
  rfl

def IsAwaited (outstanding : IdMap Move) (moves : List Move) : Prop :=
  ∀ site move, outstanding.get? site = some move ↔ move ∈ moves ∧ move.targetSite = site

section
variable {outstanding : IdMap Move} {moves : List Move} {move : Move}

theorem IsAwaited.congr (awaited : IsAwaited outstanding moves) {others : List Move}
    (same : ∀ move, move ∈ moves ↔ move ∈ others) : IsAwaited outstanding others := by
  intro site move
  rw [awaited site move, same]

theorem IsAwaited.insert (awaited : IsAwaited outstanding moves)
    (fresh : ∀ other ∈ moves, other.targetSite ≠ move.targetSite) :
    IsAwaited (outstanding.insert move.targetSite move) (move :: moves) := by
  intro site other
  rw [IdMap.get?_insert]
  by_cases here : site = move.targetSite
  · subst here
    rw [if_pos rfl, Option.some.injEq]
    constructor
    · intro same
      subst same
      exact ⟨List.mem_cons_self, rfl⟩
    · intro known
      obtain ⟨listed, same⟩ := known
      rcases List.mem_cons.1 listed with new | old
      · exact new.symm
      · exact absurd same (fresh other old)
  · rw [if_neg here, awaited site other, List.mem_cons]
    constructor
    · intro known
      exact ⟨.inr known.1, known.2⟩
    · intro known
      obtain ⟨new | old, same⟩ := known
      · exact absurd (same.symm.trans (congrArg _ new)) here
      · exact ⟨old, same⟩

theorem IsAwaited.erase (awaited : IsAwaited outstanding (move :: moves))
    (fresh : ∀ other ∈ moves, other.targetSite ≠ move.targetSite) :
    IsAwaited (outstanding.erase move.targetSite) moves := by
  intro site other
  rw [IdMap.get?_erase]
  by_cases here : site = move.targetSite
  · rw [if_pos here]
    apply iff_of_false (fun found => nomatch found)
    exact fun known => fresh other known.1 (known.2.trans here)
  · rw [if_neg here, awaited site other, List.mem_cons]
    constructor
    · intro known
      obtain ⟨new | old, same⟩ := known
      · exact absurd (same.symm.trans (congrArg _ new)) here
      · exact ⟨old, same⟩
    · intro known
      exact ⟨.inr known.1, known.2⟩

end

theorem isAwaited_empty : IsAwaited .empty [] := by
  intro site move
  simp

theorem IsAwaited.foldl_insert {outstanding : IdMap Move} {known moves : List Move}
    (awaited : IsAwaited outstanding known) (distinct : (moves.map (·.targetSite)).Nodup)
    (fresh : ∀ move ∈ moves, ∀ other ∈ known, other.targetSite ≠ move.targetSite) :
    IsAwaited (moves.foldl (fun books move => books.insert move.targetSite move) outstanding)
      (known ++ moves) := by
  induction moves generalizing outstanding known with
  | nil => rwa [List.append_nil]
  | cons move moves ih =>
    rw [List.map_cons, List.nodup_cons] at distinct
    have booked := awaited.insert (fresh move List.mem_cons_self)
    refine (ih booked distinct.2 ?_).congr fun other => ?_
    · intro later listed other member same
      rcases List.mem_cons.1 member with rfl | old
      · exact distinct.1 (List.mem_map.2 ⟨later, listed, same.symm⟩)
      · exact fresh later (List.mem_cons_of_mem _ listed) other old same
    · simp only [List.mem_append, List.mem_cons]
      rw [or_assoc, or_left_comm]

theorem IsAwaited.isEmpty_iff {outstanding : IdMap Move} {moves : List Move}
    (awaited : IsAwaited outstanding moves) : outstanding.isEmpty = true ↔ moves = [] := by
  rw [IdMap.isEmpty, List.isEmpty_iff, List.eq_nil_iff_forall_not_mem,
    List.eq_nil_iff_forall_not_mem]
  constructor
  · intro empty move member
    exact empty _ (IdMap.get?_eq_some_iff.1 ((awaited move.targetSite move).2 ⟨member, rfl⟩))
  · intro none entry listed
    exact none _ ((awaited entry.1 entry.2).1 (IdMap.get?_eq_some_iff.2 listed)).1

def addSource (sites : IdMap IdSet) (move : Move) : IdMap IdSet :=
  sites.upsert move.sourceHost fun known => (known.getD .empty).insert move.sourceSite

def IsFiled (sites : IdMap IdSet) (host : HostId) (site : SiteId) : Prop :=
  ∃ held, sites.get? host = some held ∧ site ∈ held

theorem isFiled_addSource {sites : IdMap IdSet} {move : Move} {host : HostId} {site : SiteId} :
    IsFiled (addSource sites move) host site ↔
      IsFiled sites host site ∨ (move.sourceHost = host ∧ move.sourceSite = site) := by
  unfold IsFiled addSource
  rw [IdMap.get?_upsert]
  by_cases here : host = move.sourceHost
  · subst here
    cases sites.get? move.sourceHost with
    | none => simp [eq_comm]
    | some held => simp [eq_comm, or_comm]
  · simp [here, Ne.symm here]

theorem isFiled_foldl_addSource {moves : List Move} {sites : IdMap IdSet} {host : HostId}
    {site : SiteId} :
    IsFiled (moves.foldl addSource sites) host site ↔
      IsFiled sites host site ∨
        ∃ move ∈ moves, move.sourceHost = host ∧ move.sourceSite = site := by
  induction moves generalizing sites with
  | nil => simp
  | cons move moves ih =>
    simp only [List.foldl_cons, ih, isFiled_addSource, List.mem_cons, exists_eq_or_imp, or_assoc]

theorem mem_sources {run : Run} {host : HostId} {site : SiteId} :
    (host, site) ∈ run.sources ↔
      ∃ move ∈ run.completed, move.sourceHost = host ∧ move.sourceSite = site := by
  have filed : (host, site) ∈ run.sources ↔
      IsFiled (run.completed.foldl addSource .empty) host site := by
    change (host, site) ∈ (run.completed.foldl addSource .empty).entries.flatMap
      (fun entry => entry.2.toList.map fun site => (entry.1, site)) ↔ _
    simp only [IsFiled, List.mem_flatMap, List.mem_map, Prod.mk.injEq, IdMap.get?_eq_some_iff]
    constructor
    · intro listed
      obtain ⟨entry, member, held, inside, rfl, rfl⟩ := listed
      exact ⟨entry.2, member, inside⟩
    · intro found
      obtain ⟨held, member, inside⟩ := found
      exact ⟨(host, held), member, site, inside, rfl, rfl⟩
  rw [filed, isFiled_foldl_addSource]
  simp [IsFiled]

/-- The sites to be retired are listed by host, and by number under each host. -/
theorem pairwise_sources (run : Run) :
    run.sources.Pairwise (Prod.Lex (· < ·) (· < ·)) := by
  unfold sources
  simp only
  generalize run.completed.foldl _ IdMap.empty = sites
  refine List.pairwise_flatMap.2 ⟨fun entry _ => ?_, sites.ascending.imp fun below => ?_⟩
  · exact entry.2.ascending.map _ fun site other before => Prod.Lex.right _ before
  · intro source here other there
    obtain ⟨site, _, rfl⟩ := List.mem_map.1 here
    obtain ⟨site, _, rfl⟩ := List.mem_map.1 there
    exact Prod.Lex.left _ _ below

theorem nodup_sources (run : Run) : run.sources.Nodup := by
  refine run.pairwise_sources.imp ?_
  rintro source _ before rfl
  exact irrefl source before

/-- In which order moves were acknowledged makes no difference to what is to be retired. -/
theorem sources_eq_of_mem_iff {run other : Run}
    (same : ∀ move, move ∈ run.completed ↔ move ∈ other.completed) :
    run.sources = other.sources := by
  have members : ∀ source, source ∈ run.sources ↔ source ∈ other.sources := by
    intro source
    rw [mem_sources, mem_sources]
    exact exists_congr fun move => and_congr_left fun _ => same move
  exact List.Perm.eq_of_pairwise (fun _ _ _ _ before after => absurd after (asymm before))
    run.pairwise_sources other.pairwise_sources
    ((List.perm_ext_iff_of_nodup run.nodup_sources other.nodup_sources).2 members)

end Rebalance.Run
