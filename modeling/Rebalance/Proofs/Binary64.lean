import Rebalance.Scalar

/-!
How binary64 numbers compare. Any two of them do, one way or the other, unless one of them is
no number at all.
-/

namespace Rebalance

namespace Binary64

open Float.Model (UnpackedFloat)

theorem swap_compare_then (e f : Int) (m n : Nat) :
    (compare f e).then (compare n m) = ((compare e f).then (compare m n)).swap := by
  rw [Ordering.swap_then, Int.compare_swap, Nat.compare_swap]

/-- Only two finite numbers of one sign are compared by exponent and mantissa. -/
theorem compare_swap (x y : UnpackedFloat) :
    y.compare x = (x.compare y).map Ordering.swap := by
  cases x with
  | notANumber => cases y <;> rfl
  | zero => cases y with
    | infinity t | finite t => cases t <;> rfl
    | zero | notANumber => rfl
  | infinity s => cases y with
    | infinity t => cases s <;> cases t <;> rfl
    | zero | finite | notANumber => cases s <;> rfl
  | finite s m e => cases y with
    | zero | notANumber => cases s <;> rfl
    | infinity t => cases s <;> cases t <;> rfl
    | finite t n f =>
      have reversed := congrArg some (swap_compare_then e f m n)
      cases s with
      | positive => cases t with
        | positive => exact reversed
        | negative => rfl
      | negative => cases t with
        | positive => rfl
        | negative => exact congrArg (·.map Ordering.swap) reversed

theorem exists_compare {x y : UnpackedFloat} (number : x.isNaN = false)
    (other : y.isNaN = false) : ∃ order, x.compare y = some order := by
  cases x with
  | notANumber => cases number
  | zero => cases y with
    | notANumber => cases other
    | infinity t | finite t => cases t <;> exact ⟨_, rfl⟩
    | zero => exact ⟨_, rfl⟩
  | infinity s | finite s => cases y with
    | notANumber => cases other
    | infinity t | finite t => cases s <;> cases t <;> exact ⟨_, rfl⟩
    | zero => cases s <;> exact ⟨_, rfl⟩

theorem compare_eq_none_iff (x y : UnpackedFloat) :
    x.compare y = none ↔ x.isNaN = true ∨ y.isNaN = true := by
  cases number : x.isNaN with
  | true =>
    cases x with
    | notANumber => exact iff_of_true rfl (.inl rfl)
    | _ => cases number
  | false =>
    cases other : y.isNaN with
    | true =>
      cases y with
      | notANumber => exact iff_of_true (by cases x <;> rfl) (.inr rfl)
      | _ => cases other
    | false =>
      obtain ⟨order, same⟩ := exists_compare number other
      rw [same]
      simp

theorem lt_iff (a b : Float) :
    a < b ↔ a.toModel.unpack.compare b.toModel.unpack = some .lt :=
  decide_eq_true_iff.trans beq_iff_eq

theorem le_eq_true_iff (a b : Float) : Scalar.le a b = true ↔
    (a.toModel.unpack.compare b.toModel.unpack).any (·.isLE) = true :=
  decide_eq_true_iff.trans decide_eq_true_iff

/-- What is not at most another number is above it, unless one of the two is no number. -/
theorem le_eq_false_iff (a b : Float) :
    Scalar.le a b = false ↔ b < a ∨ a.isNaN = true ∨ b.isNaN = true := by
  have incomparable : a.isNaN = true ∨ b.isNaN = true ↔
      a.toModel.unpack.compare b.toModel.unpack = none := (compare_eq_none_iff _ _).symm
  rw [incomparable, lt_iff, compare_swap a.toModel.unpack, ← Bool.not_eq_true, le_eq_true_iff]
  cases a.toModel.unpack.compare b.toModel.unpack with
  | none => simp
  | some order => cases order <;> decide

theorem isNaN_of_lt {a b : Float} (below : a < b) : a.isNaN = false ∧ b.isNaN = false := by
  rw [← Bool.not_eq_true, ← Bool.not_eq_true, ← not_or]
  intro incomparable
  have none := (compare_eq_none_iff a.toModel.unpack b.toModel.unpack).2 incomparable
  rw [lt_iff, none] at below
  cases below

end Binary64

end Rebalance
