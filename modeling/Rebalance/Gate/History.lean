import Rebalance.Scalar

/-!
A bounded window of past estimates with their mean and population standard deviation.
-/

namespace Rebalance

structure History (α : Type) where
  capacity : Nat
  /-- Oldest first. -/
  values : List α := []
deriving Inhabited

namespace History

variable {α : Type} [Scalar α]

def new (capacity : Nat) : History α := { capacity := max capacity 1 }

def push (history : History α) (value : α) : History α :=
  let kept :=
    if history.values.length = history.capacity then history.values.drop 1 else history.values
  { history with values := kept ++ [value] }

def size (history : History α) : Nat := history.values.length

def isFull (history : History α) : Bool := history.values.length = history.capacity

def mean (history : History α) : Option α :=
  if history.values.isEmpty then none
  else some (Scalar.sum history.values / Scalar.ofCount history.values.length)

def deviation (history : History α) : Option α :=
  history.mean.map fun mean =>
    let squares := history.values.map fun value => (value - mean) * (value - mean)
    Scalar.sqrt (Scalar.sum squares / Scalar.ofCount history.values.length)

end History

end Rebalance
