import Mathlib.Algebra.Order.BigOperators.Group.List
import Mathlib.Algebra.Order.Field.Basic
import Mathlib.Algebra.Order.Field.Rat
import Mathlib.Data.Rat.Sqrt
import Rebalance.Scalar

/-!
Exact arithmetic: scalars that are the elements of an ordered field, where no operation
rounds. The rationals are one such field. Sums and maxima of lists are monotone in it.
-/

namespace Rebalance

class ExactField (K : Type) extends Field K, LinearOrder K, IsStrictOrderedRing K where
  sqrt : K → K

instance : ExactField ℚ where
  sqrt := Rat.sqrt

namespace Scalar

variable {K : Type} [ExactField K]

instance exact : Scalar K where
  ofCount n := n
  abs x := |x|
  sqrt := ExactField.sqrt
  lt a b := decide (a < b)
  le a b := decide (a ≤ b)
  rankLe a b := decide (a ≤ b)
  isFinite _ := true

@[simp] theorem zero_eq : (zero : K) = 0 := Nat.cast_zero

@[simp] theorem one_eq : (one : K) = 1 := Nat.cast_one

theorem ofCount_nonneg (n : Nat) : (0 : K) ≤ ofCount n := Nat.cast_nonneg n

theorem ofCount_le_ofCount {m n : Nat} (below : m ≤ n) : (ofCount m : K) ≤ ofCount n :=
  Nat.cast_le.2 below

theorem maximum_eq (a b : K) : maximum a b = max a b := by
  show (if decide (a < b) = true then b else a) = max a b
  by_cases below : a < b
  · rw [if_pos (decide_eq_true below), max_eq_right below.le]
  · rw [if_neg (by simpa using below), max_eq_left (not_lt.1 below)]

theorem sum_eq (xs : List K) : Scalar.sum xs = xs.sum := by
  unfold Scalar.sum
  rw [List.sum_eq_foldl, zero_eq]

theorem sum_map_le_sum_map {ι : Type} {xs : List ι} {f g : ι → K}
    (below : ∀ i ∈ xs, f i ≤ g i) : Scalar.sum (xs.map f) ≤ Scalar.sum (xs.map g) := by
  rw [sum_eq, sum_eq]
  exact List.sum_le_sum below

theorem sum_map_nonneg {ι : Type} {xs : List ι} {f : ι → K} (above : ∀ i ∈ xs, 0 ≤ f i) :
    0 ≤ Scalar.sum (xs.map f) := by
  rw [sum_eq]
  apply List.sum_nonneg
  intro x member
  obtain ⟨i, inside, rfl⟩ := List.mem_map.1 member
  exact above i inside

theorem foldl_maximum_le_iff {xs : List K} {first bound : K} :
    xs.foldl maximum first ≤ bound ↔ first ≤ bound ∧ ∀ x ∈ xs, x ≤ bound := by
  induction xs generalizing first with
  | nil => simp
  | cons x xs ih =>
    rw [List.foldl_cons, ih, maximum_eq, max_le_iff, List.forall_mem_cons, and_assoc]

theorem largest_le_iff {xs : List K} {bound : K} :
    largest xs ≤ bound ↔ 0 ≤ bound ∧ ∀ x ∈ xs, x ≤ bound := by
  unfold largest
  rw [foldl_maximum_le_iff, zero_eq]

theorem largest_nonneg (xs : List K) : 0 ≤ largest xs := (largest_le_iff.1 le_rfl).1

theorem le_largest {xs : List K} {x : K} (member : x ∈ xs) : x ≤ largest xs :=
  (largest_le_iff.1 le_rfl).2 x member

theorem largest_le_largest {xs ys : List K} (dominated : ∀ x ∈ xs, ∃ y ∈ ys, x ≤ y) :
    largest xs ≤ largest ys := by
  refine largest_le_iff.2 ⟨largest_nonneg ys, fun x member => ?_⟩
  obtain ⟨y, inside, below⟩ := dominated x member
  exact below.trans (le_largest inside)

end Scalar

end Rebalance
