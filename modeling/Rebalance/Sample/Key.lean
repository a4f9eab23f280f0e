import Rebalance.Ident

/-!
What identifies a group of transactions: the procedure, the host that received the request,
and the partitions that are touched.
-/

namespace Rebalance

inductive Scope
  | single (partition : PartitionId)
  /-- A transaction on several partitions is taken to touch all of them. -/
  | every
deriving DecidableEq, Inhabited

structure GroupKey where
  procedure : String
  host : HostId
  scope : Scope
deriving DecidableEq, Inhabited

namespace GroupKey

def isSingle (key : GroupKey) : Bool :=
  match key.scope with
  | .single _ => true
  | .every => false

def partition? (key : GroupKey) : Option PartitionId :=
  match key.scope with
  | .single partition => some partition
  | .every => none

def text (key : GroupKey) : String :=
  let scope := match key.scope with
    | .single partition => "p" ++ toString partition
    | .every => "all"
  key.procedure ++ "@" ++ toString key.host ++ "/" ++ scope

end GroupKey

def Scope.ordering : Scope → Scope → Ordering
  | .single p, .single q => compare p q
  | .single _, .every => .lt
  | .every, .single _ => .gt
  | .every, .every => .eq

def GroupKey.ordering (a b : GroupKey) : Ordering :=
  (compareOfLessAndEq a.procedure b.procedure).then
    ((compare a.host b.host).then (a.scope.ordering b.scope))

end Rebalance
