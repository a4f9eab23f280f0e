/-!
Finite sets of identifiers, kept as strictly ascending lists, so that two sets with the
same members are equal and a set is listed in one way only.
-/

namespace Rebalance

def insertAscending (n : Nat) : List Nat → List Nat
  | [] => [n]
  | m :: rest =>
    if n < m then n :: m :: rest
    else if n = m then m :: rest
    else m :: insertAscending n rest

theorem mem_insertAscending {n k : Nat} {ids : List Nat} :
    k ∈ insertAscending n ids ↔ k = n ∨ k ∈ ids := by
  induction ids with
  | nil => simp [insertAscending]
  | cons m rest ih =>
    unfold insertAscending
    split
    · simp
    · split
      · next same => subst same; simp
      · simp [ih, or_left_comm]

theorem pairwise_insertAscending {n : Nat} {ids : List Nat} (sorted : ids.Pairwise (· < ·)) :
    (insertAscending n ids).Pairwise (· < ·) := by
  induction ids with
  | nil => simp [insertAscending]
  | cons m rest ih =>
    rw [List.pairwise_cons] at sorted
    unfold insertAscending
    split
    · next below =>
      simp only [List.pairwise_cons, List.mem_cons]
      refine ⟨?_, sorted⟩
      rintro k (rfl | member)
      · exact below
      · exact Nat.lt_trans below (sorted.1 k member)
    · next notBelow =>
      split
      · exact List.pairwise_cons.2 sorted
      · next differs =>
        refine List.pairwise_cons.2 ⟨?_, ih sorted.2⟩
        intro k member
        rcases mem_insertAscending.1 member with rfl | old
        · omega
        · exact sorted.1 k old

theorem eq_of_pairwise_of_mem_iff {as bs : List Nat} (ascendingLeft : as.Pairwise (· < ·))
    (ascendingRight : bs.Pairwise (· < ·)) (same : ∀ n, n ∈ as ↔ n ∈ bs) : as = bs := by
  induction as generalizing bs with
  | nil =>
    cases bs with
    | nil => rfl
    | cons b bs => exact absurd ((same b).2 List.mem_cons_self) List.not_mem_nil
  | cons a as ih =>
    cases bs with
    | nil => exact absurd ((same a).1 List.mem_cons_self) List.not_mem_nil
    | cons b bs =>
      rw [List.pairwise_cons] at ascendingLeft ascendingRight
      have heads : a = b := by
        rcases List.mem_cons.1 ((same a).1 List.mem_cons_self) with here | below
        · exact here
        · rcases List.mem_cons.1 ((same b).2 List.mem_cons_self) with here | above
          · exact here.symm
          · have := ascendingRight.1 a below
            have := ascendingLeft.1 b above
            omega
      subst heads
      refine congrArg (a :: ·) (ih ascendingLeft.2 ascendingRight.2 fun n => ?_)
      constructor
      · intro member
        have := ascendingLeft.1 n member
        exact (List.mem_cons.1 ((same n).1 (List.mem_cons_of_mem _ member))).resolve_left (by omega)
      · intro member
        have := ascendingRight.1 n member
        exact (List.mem_cons.1 ((same n).2 (List.mem_cons_of_mem _ member))).resolve_left (by omega)

structure IdSet where
  toList : List Nat
  ascending : toList.Pairwise (· < ·)
deriving DecidableEq

namespace IdSet

def empty : IdSet := ⟨[], .nil⟩

instance : Inhabited IdSet := ⟨empty⟩
instance : EmptyCollection IdSet := ⟨empty⟩
instance : Membership Nat IdSet := ⟨fun s n => n ∈ s.toList⟩

instance (n : Nat) (s : IdSet) : Decidable (n ∈ s) :=
  inferInstanceAs (Decidable (n ∈ s.toList))

def contains (s : IdSet) (n : Nat) : Bool := s.toList.contains n

def size (s : IdSet) : Nat := s.toList.length

def isEmpty (s : IdSet) : Bool := s.toList.isEmpty

def insert (s : IdSet) (n : Nat) : IdSet :=
  ⟨insertAscending n s.toList, pairwise_insertAscending s.ascending⟩

def erase (s : IdSet) (n : Nat) : IdSet :=
  if s.contains n then ⟨s.toList.filter (· != n), s.ascending.filter _⟩ else s

def ofList (ids : List Nat) : IdSet := ids.foldr (fun n s => s.insert n) empty

def union (s t : IdSet) : IdSet := t.toList.foldl insert s

theorem mem_def {n : Nat} {s : IdSet} : n ∈ s ↔ n ∈ s.toList := Iff.rfl

@[simp] theorem mem_empty {n : Nat} : ¬ n ∈ (empty : IdSet) := List.not_mem_nil

@[simp] theorem mem_insert {n k : Nat} {s : IdSet} : k ∈ s.insert n ↔ k = n ∨ k ∈ s :=
  mem_insertAscending

@[simp] theorem mem_erase {n k : Nat} {s : IdSet} : k ∈ s.erase n ↔ k ∈ s ∧ k ≠ n := by
  unfold erase contains
  split
  · simp [mem_def]
  · next absent =>
    refine ⟨fun member => ⟨member, ?_⟩, And.left⟩
    rintro rfl
    exact absent (List.contains_iff_mem.2 member)

theorem nodup (s : IdSet) : s.toList.Nodup := s.ascending.imp Nat.ne_of_lt

theorem ext {s t : IdSet} (same : ∀ n, n ∈ s ↔ n ∈ t) : s = t := by
  obtain ⟨as, ascendingLeft⟩ := s
  obtain ⟨bs, ascendingRight⟩ := t
  congr
  exact eq_of_pairwise_of_mem_iff ascendingLeft ascendingRight same

theorem mem_foldl_insert {ids : List Nat} {s : IdSet} {n : Nat} :
    n ∈ ids.foldl insert s ↔ n ∈ ids ∨ n ∈ s := by
  induction ids generalizing s with
  | nil => simp
  | cons id ids ih =>
    rw [List.foldl_cons, ih, mem_insert, List.mem_cons, or_assoc]
    exact or_left_comm

@[simp] theorem mem_ofList {ids : List Nat} {n : Nat} : n ∈ ofList ids ↔ n ∈ ids := by
  induction ids with
  | nil => simp [ofList]
  | cons id ids ih =>
    rw [List.mem_cons, ← ih]
    exact mem_insert

theorem ofList_toList (s : IdSet) : ofList s.toList = s := by
  apply ext
  intro n
  rw [mem_ofList, mem_def]

@[simp] theorem mem_union {s t : IdSet} {n : Nat} : n ∈ s.union t ↔ n ∈ s ∨ n ∈ t := by
  rw [union, mem_foldl_insert, ← mem_def, or_comm]

end IdSet

end Rebalance
