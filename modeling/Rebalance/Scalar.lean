/-!
The numbers in which execution times are estimated. Every estimate is written against
`Scalar`, with no law assumed: a run computes in binary64, and a statement about exact
arithmetic reads the same definitions over an ordered field.
-/

namespace Rebalance

class Scalar (α : Type) extends Add α, Sub α, Mul α, Div α where
  /-- The number nearest to a count below `2 ^ 64`. -/
  ofCount : Nat → α
  abs : α → α
  sqrt : α → α
  lt : α → α → Bool
  le : α → α → Bool
  /-- A total order, used only to rank choices. -/
  rankLe : α → α → Bool
  isFinite : α → Bool

namespace Scalar

variable {α : Type} [Scalar α]

def zero : α := ofCount 0

def one : α := ofCount 1

@[inline] def maximum (a b : α) : α := if lt a b then b else a

@[specialize] def sum (xs : List α) : α := xs.foldl (· + ·) zero

@[specialize] def largest (xs : List α) : α := xs.foldl maximum zero

end Scalar

/-- The bits of a binary64 number, rearranged so that their order as naturals is the total
order of IEEE 754: negative before positive, every not-a-number outermost. -/
def totalOrderKey (x : Float) : Nat :=
  let bits := x.toBits
  if bits.toNat < Nat.pow 2 63 then bits.toNat + Nat.pow 2 63
  else Nat.pow 2 64 - 1 - bits.toNat

instance : Scalar Float where
  ofCount n := n.toUInt64.toFloat
  abs := Float.abs
  sqrt := Float.sqrt
  lt a b := a < b
  le a b := a ≤ b
  rankLe a b := totalOrderKey a ≤ totalOrderKey b
  isFinite := Float.isFinite

end Rebalance
