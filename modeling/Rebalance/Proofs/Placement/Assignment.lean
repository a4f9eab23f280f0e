import Rebalance.Placement.Model

/-!
What an assignment says of each partition number, how many partitions it puts on a host
number, and how many it puts elsewhere than another assignment does. Assigning one more
partition changes one count of each kind by at most one.
-/

namespace Rebalance

theorem countP_range_eq_succ {n i : Nat} {before after : Nat → Bool} (bound : i < n)
    (off : before i = false) (on : after i = true)
    (same : ∀ j, j ≠ i → after j = before j) :
    (List.range n).countP after = (List.range n).countP before + 1 := by
  induction n with
  | zero => exact absurd bound (Nat.not_lt_zero i)
  | succ n ih =>
    rw [List.range_succ, List.countP_append, List.countP_append]
    by_cases last : i = n
    · subst last
      have below : (List.range i).countP after = (List.range i).countP before :=
        List.countP_congr fun j member => by
          rw [same j (Nat.ne_of_lt (List.mem_range.1 member))]
      rw [below]
      simp [off, on]
    · have here := same n (Ne.symm last)
      rw [ih (by omega)]
      simp only [List.countP_singleton, here]
      omega

theorem countP_range_congr {n : Nat} {before after : Nat → Bool}
    (same : ∀ i < n, after i = before i) :
    (List.range n).countP after = (List.range n).countP before :=
  List.countP_congr fun i member => by rw [same i (List.mem_range.1 member)]

theorem countP_range_length {β : Type} (xs : List β) (p : β → Bool) :
    ((List.range xs.length).countP fun i => (xs[i]?).any p) = xs.countP p := by
  induction xs with
  | nil => rfl
  | cons x xs ih =>
    rw [List.length_cons, List.range_succ_eq_map, List.countP_cons, List.countP_map,
      List.countP_cons, ← ih]
    rfl

namespace Assignment

def hostAt (assignment : Assignment) (number : Nat) : Option Nat := assignment[number]?.getD none

def load (assignment : Assignment) (host : Nat) : Nat :=
  (List.range assignment.size).countP fun number => assignment.hostAt number == some host

def apart (assignment home : Assignment) : Nat :=
  (List.range assignment.size).countP fun number =>
    (assignment.hostAt number).isSome && assignment.hostAt number != home.hostAt number

def Extends (target assignment : Assignment) : Prop :=
  ∀ number host, assignment.hostAt number = some host → target.hostAt number = some host

theorem lt_size_of_hostAt {assignment : Assignment} {number host : Nat}
    (chosen : assignment.hostAt number = some host) : number < assignment.size := by
  refine Nat.lt_of_not_le fun beyond => ?_
  rw [hostAt, Array.getElem?_eq_none beyond] at chosen
  cases chosen

theorem extends_iff {target assignment : Assignment} : target.Extends assignment ↔
    ∀ number < assignment.size, assignment.hostAt number = none ∨
      target.hostAt number = assignment.hostAt number := by
  constructor
  · intro agree number _
    cases chosen : assignment.hostAt number with
    | none => exact .inl rfl
    | some host => exact .inr (agree number host chosen)
  · intro agree number host chosen
    rcases agree number (lt_size_of_hostAt chosen) with missing | same
    · rw [missing] at chosen
      cases chosen
    · rw [same, chosen]

instance (target assignment : Assignment) : Decidable (target.Extends assignment) :=
  decidable_of_iff' _ extends_iff

theorem ext_hostAt {first second : Assignment} (sizes : first.size = second.size)
    (same : ∀ number < first.size, first.hostAt number = second.hostAt number) :
    first = second := by
  apply Array.ext sizes
  intro number here there
  have agree := same number here
  simp only [hostAt, Array.getElem?_eq_getElem here, Array.getElem?_eq_getElem there,
    Option.getD_some] at agree
  exact agree

theorem hostAt_replicate (size number : Nat) :
    hostAt (Array.replicate size none) number = none := by
  rw [hostAt, Array.getElem?_replicate]
  split <;> rfl

theorem load_replicate (size host : Nat) : load (Array.replicate size none) host = 0 :=
  List.countP_eq_zero.2 fun number _ => by simp [hostAt_replicate]

theorem apart_replicate (size : Nat) (home : Assignment) :
    apart (Array.replicate size none) home = 0 :=
  List.countP_eq_zero.2 fun number _ => by simp [hostAt_replicate]

theorem hostAt_set {assignment : Assignment} {number : Nat} (bound : number < assignment.size)
    (host : Option Nat) (other : Nat) :
    hostAt (assignment.setIfInBounds number host) other =
      if other = number then host else assignment.hostAt other := by
  unfold hostAt
  rw [Array.getElem?_setIfInBounds]
  by_cases same : number = other
  · subst same
    rw [if_pos rfl, if_pos bound, if_pos rfl, Option.getD_some]
  · rw [if_neg same, if_neg (Ne.symm same)]

/-- Taking a choice back that was made where there was none leads back. -/
theorem set_none_set {assignment : Assignment} {number : Nat} (bound : number < assignment.size)
    (fresh : assignment.hostAt number = none) (host : Option Nat) :
    (assignment.setIfInBounds number host).setIfInBounds number none = assignment := by
  have inside : number < (assignment.setIfInBounds number host).size := by
    rw [Array.size_setIfInBounds]
    exact bound
  apply ext_hostAt (by simp only [Array.size_setIfInBounds])
  intro other _
  rw [hostAt_set inside, hostAt_set bound]
  by_cases same : other = number
  · rw [if_pos same, same, fresh]
  · rw [if_neg same, if_neg same]

theorem extends_set_none (assignment : Assignment) (number : Nat) :
    assignment.Extends (assignment.setIfInBounds number none) := by
  intro other host found
  unfold hostAt at found ⊢
  rw [Array.getElem?_setIfInBounds] at found
  split at found
  · split at found <;> cases found
  · exact found

theorem load_set {assignment : Assignment} {number : Nat} (bound : number < assignment.size)
    (fresh : assignment.hostAt number = none) (host other : Nat) :
    load (assignment.setIfInBounds number (some host)) other =
      assignment.load other + if other = host then 1 else 0 := by
  unfold load
  rw [Array.size_setIfInBounds]
  by_cases here : other = host
  · subst here
    rw [if_pos rfl]
    refine countP_range_eq_succ bound ?_ ?_ fun later differs => ?_
    · rw [fresh]
      rfl
    · rw [hostAt_set bound, if_pos rfl]
      exact beq_self_eq_true _
    · rw [hostAt_set bound, if_neg differs]
  · rw [if_neg here, Nat.add_zero]
    apply countP_range_congr
    intro later _
    rw [hostAt_set bound]
    by_cases same : later = number
    · rw [if_pos same, same, fresh]
      simpa using Ne.symm here
    · rw [if_neg same]

theorem apart_set {assignment : Assignment} {number : Nat} (bound : number < assignment.size)
    (fresh : assignment.hostAt number = none) (home : Assignment) (host : Nat) :
    apart (assignment.setIfInBounds number (some host)) home =
      assignment.apart home + if home.hostAt number = some host then 0 else 1 := by
  unfold apart
  rw [Array.size_setIfInBounds]
  by_cases stays : home.hostAt number = some host
  · rw [if_pos stays, Nat.add_zero]
    apply countP_range_congr
    intro later _
    rw [hostAt_set bound]
    by_cases same : later = number
    · rw [if_pos same, same, fresh, stays]
      simp
    · rw [if_neg same]
  · rw [if_neg stays]
    refine countP_range_eq_succ bound ?_ ?_ fun later differs => ?_
    · rw [fresh]
      rfl
    · rw [hostAt_set bound, if_pos rfl]
      simpa using Ne.symm stays
    · rw [hostAt_set bound, if_neg differs]

theorem load_eq_count (assignment : Assignment) (host : Nat) :
    assignment.load host = assignment.toList.count (some host) := by
  rw [load, List.count, ← countP_range_length assignment.toList, Array.length_toList]
  apply countP_range_congr
  intro number bound
  rw [hostAt, Array.getElem?_toList, Array.getElem?_eq_getElem bound]
  rfl

theorem load_mono {assignment target : Assignment} (sizes : assignment.size = target.size)
    (agree : target.Extends assignment) (host : Nat) : assignment.load host ≤ target.load host := by
  unfold load
  rw [sizes]
  apply List.countP_mono_left
  intro number _ here
  rw [beq_iff_eq] at here ⊢
  exact agree number host here

theorem apart_mono {assignment target : Assignment} (sizes : assignment.size = target.size)
    (agree : target.Extends assignment) (home : Assignment) :
    assignment.apart home ≤ target.apart home := by
  unfold apart
  rw [sizes]
  apply List.countP_mono_left
  intro number _ away
  rw [Bool.and_eq_true] at away ⊢
  obtain ⟨host, found⟩ := Option.isSome_iff_exists.1 away.1
  rw [agree number host found, ← found]
  exact away

theorem apart_self (home : Assignment) : home.apart home = 0 :=
  List.countP_eq_zero.2 fun number _ => by simp

end Assignment

end Rebalance
