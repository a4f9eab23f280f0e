import Rebalance.Proofs.Migration.Run

/-!
The books of a run under acknowledgements. Each accepted move is either outstanding or
completed, and which of the two is told by the sites that were acknowledged so far.
-/

namespace Rebalance

/-- What a run has in its books, told by the moves accepted for it and the sites acknowledged
since. -/
structure Run.Books (run : Run) (accepted : List Move) (acked : List SiteId) : Prop where
  outstanding : ∀ site move, run.outstanding.get? site = some move ↔
    (move ∈ accepted ∧ move.targetSite = site) ∧ site ∉ acked
  completed : ∀ move, move ∈ run.completed ↔ move ∈ accepted ∧ move.targetSite ∈ acked

namespace Run.Books

variable {run : Run} {accepted : List Move} {acked : List SiteId} {site : SiteId}

/-- What is outstanding are the accepted moves that were not acknowledged. -/
theorem isAwaited (books : Books run accepted acked) :
    IsAwaited run.outstanding (accepted.filter (·.targetSite ∉ acked)) := by
  intro site move
  rw [books.outstanding, List.mem_filter, decide_eq_true_eq, and_right_comm]
  exact and_congr_left fun here => by rw [here]

theorem isComplete_iff (books : Books run accepted acked) :
    run.isComplete = true ↔ accepted.filter (·.targetSite ∉ acked) = [] :=
  books.isAwaited.isEmpty_iff

/-- An acknowledgement that no outstanding move has asked for changes nothing. -/
theorem unknown (books : Books run accepted acked)
    (absent : run.outstanding.get? site = none) : Books run accepted (acked ++ [site]) := by
  have seen : ∀ move ∈ accepted, move.targetSite = site → site ∈ acked := by
    intro move member here
    by_contra missing
    rw [(books.outstanding site move).2 ⟨⟨member, here⟩, missing⟩] at absent
    cases absent
  have same : ∀ move ∈ accepted,
      move.targetSite ∈ acked ++ [site] ↔ move.targetSite ∈ acked := by
    intro move member
    rw [List.mem_append, List.mem_singleton]
    exact or_iff_left_of_imp fun here => here ▸ seen move member here
  constructor
  · intro other move
    rw [books.outstanding]
    exact and_congr_right fun known => by rw [← known.2, same move known.1]
  · intro move
    rw [books.completed]
    exact and_congr_right fun member => (same move member).symm

/-- An acknowledgement moves an outstanding move to the completed ones. -/
theorem acknowledged (books : Books run accepted acked) {move : Move}
    (known : run.outstanding.get? site = some move) :
    Books (run.acknowledged move site) accepted (acked ++ [site]) := by
  obtain ⟨⟨member, here⟩, missing⟩ := (books.outstanding site move).1 known
  constructor
  · intro other found
    unfold Run.acknowledged
    simp only [IdMap.get?_erase, List.mem_append, List.mem_singleton, not_or]
    by_cases same : other = site
    · simp [same]
    · simp [same, books.outstanding]
  · intro other
    unfold Run.acknowledged
    simp only [List.mem_append, List.mem_singleton, books.completed]
    constructor
    · rintro (⟨listed, early⟩ | rfl)
      · exact ⟨listed, .inl early⟩
      · exact ⟨member, .inr here⟩
    · rintro ⟨listed, early | now⟩
      · exact .inl ⟨listed, early⟩
      · -- Only one move of the run goes into a site, for the books file it there.
        have found := (books.outstanding site other).2 ⟨⟨listed, now⟩, missing⟩
        rw [known] at found
        exact .inr (Option.some.inj found).symm

end Run.Books

namespace Run

def moves (run : Run) : List Move := run.outstanding.values ++ run.completed

variable {run : Run} {accepted : List Move} {acked : List SiteId} {site : SiteId}

/-- An acknowledgement only moves a move from one side of the books to the other. -/
theorem moves_acknowledged_perm {move : Move} (known : run.outstanding.get? site = some move) :
    (run.acknowledged move site).moves.Perm run.moves := by
  calc (run.outstanding.erase site).values ++ (run.completed ++ [move])
    _ = ((run.outstanding.erase site).values ++ run.completed) ++ [move] :=
      (List.append_assoc ..).symm
    List.Perm _ (move :: (run.outstanding.erase site).values ++ run.completed) :=
      List.perm_append_singleton ..
    List.Perm _ (run.outstanding.values ++ run.completed) :=
      (IdMap.values_erase_perm known).append_right _

theorem moves_acknowledge_perm (run : Run) (site : SiteId) :
    (run.acknowledge site).2.moves.Perm run.moves := by
  cases found : run.outstanding.get? site with
  | none =>
    rw [acknowledge_of_unknown found]
  | some move =>
    rw [acknowledge_of_known found]
    exact moves_acknowledged_perm found

theorem Books.acknowledge (books : Books run accepted acked) (site : SiteId) :
    Books (run.acknowledge site).2 accepted (acked ++ [site]) := by
  cases found : run.outstanding.get? site with
  | none =>
    rw [acknowledge_of_unknown found]
    exact books.unknown found
  | some move =>
    rw [acknowledge_of_known found]
    exact books.acknowledged found

theorem IsAwaited.values_perm {outstanding : IdMap Move} {moves : List Move}
    (awaited : IsAwaited outstanding moves) (distinct : moves.Nodup) :
    outstanding.values.Perm moves := by
  have once : outstanding.values.Nodup := by
    refine List.Nodup.map_on ?_ outstanding.nodup_entries
    intro entry here other there same
    have site := ((awaited _ _).1 (IdMap.get?_eq_some_iff.2 here)).2
    have siteToo := ((awaited _ _).1 (IdMap.get?_eq_some_iff.2 there)).2
    exact Prod.ext (site.symm.trans ((congrArg _ same).trans siteToo)) same
  refine (List.perm_ext_iff_of_nodup once distinct).2 fun move => ?_
  rw [IdMap.mem_values]
  constructor
  · rintro ⟨site, found⟩
    exact ((awaited site move).1 found).1
  · intro member
    exact ⟨move.targetSite, (awaited _ _).2 ⟨member, rfl⟩⟩

end Run

end Rebalance
