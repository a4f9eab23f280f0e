import Rebalance.Ident

/-!
What the execution layer reports about one completed transaction.
-/

namespace Rebalance

/-- The timing of one message between sites, sender's and receiver's clock in nanoseconds. -/
structure MessageTiming where
  sender : SiteId
  receiver : SiteId
  sent : Int
  received : Int
deriving DecidableEq, Inhabited

structure Record where
  txnId : Nat
  procedure : String
  isSingle : Bool
  /-- The partition of a single-partition transaction. -/
  partition : Option PartitionId
  /-- The host that received the request. -/
  initiatorHost : HostId
  initiatorSite : SiteId
  coordinatorSite : SiteId
  /-- End to end, in nanoseconds. -/
  latency : Int
  messages : List MessageTiming
deriving DecidableEq, Inhabited

inductive Message
  | telemetry (batch : List Record)
  | moveDone (site : SiteId)
deriving DecidableEq, Inhabited

end Rebalance
