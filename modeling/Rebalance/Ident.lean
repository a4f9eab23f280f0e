/-!
Identifiers of hosts, sites and partitions, and the largest number a 64-bit word holds.
-/

namespace Rebalance

abbrev HostId := Nat
abbrev SiteId := Nat
abbrev PartitionId := Nat

/-- Identifiers and counts that cross the wire stay at or below this. -/
def wordMax : Nat := Nat.pow 2 64 - 1

end Rebalance
